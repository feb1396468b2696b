import Mathlib.Data.List.Sort
import Std.Data.TreeMap.Lemmas
import NntpPoco.Session.Model

/-!
# `Reader.Model` — the `news-reader` program

`src/nntp/news-reader/main.cpp`, function by function, as programs over the members of `NewsReader`
together with its console: the lines still to be read from `std::cin` and what has been printed. The
session is a component of that state, and its member functions run on it (`inSession`).
-/

namespace NntpPoco

open NNTPClientSession

/-! ## State -/

/-- What is printed, each item a line of its own. -/
inductive Output
  /-- a line of a menu -/
  | menu (line : Bytes)
  /-- a line of the header that `displayArticle` shows -/
  | header (line : Bytes)
  /-- a line of the content -/
  | content (line : Bytes)
  /-- `-- More --` -/
  | more
  deriving DecidableEq, Repr

/-- The pointers of `m_articles` may be null: `none`. -/
structure NewsReader (π α : Type) where
  m_session : NNTPClientSession π
  m_groupDescs : List GroupDesc
  m_currentGroup : Bytes
  m_activeGroup : ActiveNewsGroup
  m_articles : Std.TreeMap UInt32 (Option α)
  m_selectedArticle : UInt32
  cin : List Bytes
  cout : List Output

namespace NewsReader

variable {π μ α β : Type} (poco : Poco π μ α)

/-- The members before the constructor runs, on a connection and a console. -/
def ofSocket (socket : DialogSocket π) (cin : List Bytes) : NewsReader π α where
  m_session := .ofSocket socket
  m_groupDescs := []
  m_currentGroup := []
  m_activeGroup := ⟨[], 0, 0, 0⟩
  m_articles := ∅
  m_selectedArticle := 0
  cin := cin
  cout := []

/-- A member function of the reader. -/
abbrev Method (π α β : Type) := Prog Exception (NewsReader π α) β

/-- A member function of `m_session`. -/
def inSession (p : NNTPClientSession.Method π β) : Method π α β :=
  Prog.zoom NewsReader.m_session (fun s r => { r with m_session := s }) p

/-- `std::getline(std::cin, line)` into an empty string, which stays empty once the input has ended. -/
def getline : Method π α Bytes :=
  Prog.lift fun r => (.ok (r.cin.headD []), { r with cin := r.cin.tail })

def print (lines : List Output) : Method π α Unit :=
  Prog.modify fun r => { r with cout := r.cout ++ lines }

/-! ## `NewsReader` -/

/-- The constructor, once `m_session` is connected. `std::sort` puts the groups in the order of their
    names; that of equal names, which is the one of the listing here, it leaves open. -/
def construct : Method π α Unit := do
  inSession (openSession poco)
  let groupDescs ← inSession (listNewsGroups poco (text "gmane.comp.*.boost.*"))
  Prog.modify fun r =>
    { r with m_groupDescs := groupDescs.insertionSort fun lhs rhs => ¬ rhs.1 < lhs.1 }

def getArticles : Method π α Unit := do
  Prog.modify fun r => { r with m_articles := ∅ }
  let r ← Prog.get
  Prog.loop (fun (x : UInt32 × UInt32) => do
    let r ← Prog.get
    if x.1 ≤ r.m_activeGroup.highArticle ∧ x.2 < 10 then
      let present ← inSession (stat poco x.1)
      if present then
        -- the entry is there, with a new article, before the session reads into it
        Prog.modify fun r => { r with m_articles := r.m_articles.insert x.1 (some poco.newArticle) }
        let article ← inSession (articleNumber poco x.1)
        Prog.modify fun r => { r with m_articles := r.m_articles.insert x.1 (some article) }
        pure (.inl (x.1 + 1, x.2 + 1))
      else
        pure (.inl (x.1 + 1, x.2))
    else
      pure (.inr ())) (r.m_activeGroup.lowArticle, 0)

/-- The last line of a menu. -/
def quitLine (width : ℕ) : Output := .menu (Bytes.setw width (text "q") ++ text " - Quit")

/-- The menu of `selectGroup`. -/
def groupMenu (maxLength : ℕ) (groupDescs : List GroupDesc) : List Output :=
  (groupDescs.zipIdx 1).map (fun x => .menu (Bytes.setw 3 (Bytes.ofNat x.2) ++ text " " ++ x.1.1 ++
    List.replicate (maxLength - x.1.1.length) 32 ++ x.1.2)) ++ [quitLine 3]

/-- The `do` loop of `selectGroup`: the number chosen, or `none` for `q`. -/
def chooseGroup : Method π α (Option Int) :=
  Prog.loop (fun (_ : Unit) => do
    let r ← Prog.get
    match maxElement (fun desc : GroupDesc => desc.1.length) r.m_groupDescs with
    -- `pos` is `end()`, and `pos->first` reads it
    | none => Prog.throw .undefined
    | some pos =>
      print (groupMenu (pos.1.length + 1) r.m_groupDescs)
      let cmd ← getline
      if cmd = text "q" then
        pure (.inr none)
      else
        let group ← Prog.ofExcept (poco.parse cmd)
        if group < 1 ∨ group > r.m_groupDescs.length then
          pure (.inl ())
        else
          pure (.inr (some group))) ()

def selectGroup : Method π α Bool := do
  let choice ← chooseGroup poco
  match choice with
  | none => pure false
  | some group =>
    let r ← Prog.get
    match r.m_groupDescs[(group - 1).toNat]? with
    -- `m_groupDescs[group - 1]` behind the end
    | none => Prog.throw .undefined
    | some desc =>
      Prog.modify fun r => { r with m_currentGroup := desc.1 }
      let r ← Prog.get
      let activeGroup ← inSession (selectNewsGroup poco r.m_currentGroup)
      Prog.modify fun r => { r with m_activeGroup := activeGroup }
      getArticles poco
      pure true

/-- The menu of `selectArticle`. A null pointer among the articles is dereferenced. -/
def articleMenu (maxLength : ℕ) : List (UInt32 × Option α) → Except Exception (List Output)
  | [] => .ok [quitLine maxLength]
  | (_, none) :: _ => .error .undefined
  | (number, some article) :: rest => do
    let lines ← articleMenu maxLength rest
    return .menu (Bytes.setw maxLength (Bytes.ofUInt number) ++ text " " ++ poco.getSubject article) ::
      lines

/-- The `do` loop of `selectArticle`: the number chosen, or `none` for `q`. -/
def chooseArticle : Method π α (Option UInt32) :=
  Prog.loop (fun (_ : Unit) => do
    let r ← Prog.get
    match maxElement (fun x : UInt32 × Option α => (Bytes.ofUInt x.1).length) r.m_articles.toList with
    -- `pos` is `end()`, and `pos->first` reads it
    | none => Prog.throw .undefined
    | some pos =>
      let lines ← Prog.ofExcept (articleMenu poco ((Bytes.ofUInt pos.1).length + 1) r.m_articles.toList)
      print lines
      let cmd ← getline
      if cmd = text "q" then
        pure (.inr none)
      else
        let number ← Prog.ofExcept (poco.parseUnsigned cmd)
        if number ∈ r.m_articles then
          pure (.inr (some number))
        else
          pure (.inl ())) ()

def selectArticle : Method π α Bool := do
  let choice ← chooseArticle poco
  match choice with
  | none => pure false
  | some number =>
    Prog.modify fun r => { r with m_selectedArticle := number }
    pure true

/-- The loop of `displayArticle` over the content, from `begin` and `count`. -/
def showContent (content : Bytes) : Method π α Unit :=
  Prog.loop (fun (x : ℕ × ℕ) => do
    if x.1 ≠ content.length then
      let pos := (content.find (text "\r\n") x.1).getD content.length
      let line ← Prog.ofExcept (content.substr x.1 (pos - x.1))
      print [.content line]
      let start := if pos = content.length then content.length else pos + 2
      if x.2 + 1 = 24 then
        print [.more]
        let line ← getline
        if line = text "q" then
          pure (.inr ())
        else
          pure (.inl (start, x.2 + 1))
      else
        pure (.inl (start, x.2 + 1))
    else
      pure (.inr ())) (0, 0)

/-- `m_articles[m_selectedArticle]` puts a null pointer where there is no such key. -/
def displayArticle : Method π α Unit := do
  let r ← Prog.get
  match r.m_articles[r.m_selectedArticle]? with
  | none =>
    Prog.modify fun r => { r with m_articles := r.m_articles.insert r.m_selectedArticle none }
    Prog.throw .undefined
  | some none => Prog.throw .undefined
  | some (some article) =>
    print [.header (text "        From: " ++ poco.getSender article),
      .header (text "     Subject: " ++ poco.getSubject article)]
    match poco.formatDate article "%w %B %e, %Y" with
    | .error e =>
      -- the line of the date has been begun
      print [.header (text "        Date: ")]
      Prog.throw e
    | .ok date =>
      print [.header (text "        Date: " ++ date),
        .header (text "Content-Type: " ++ poco.getContentType article),
        .header []]
      showContent (poco.getContent article)

/-! ## `main` -/

/-- `while (reader.selectArticle()) reader.displayArticle();` -/
def readArticles : Method π α Unit :=
  Prog.loop (fun (_ : Unit) => do
    let selected ← selectArticle poco
    if selected then
      displayArticle poco
      pure (.inl ())
    else
      pure (.inr ())) ()

/-- The two loops of `main`. -/
def readGroups : Method π α Unit :=
  Prog.loop (fun (_ : Unit) => do
    let selected ← selectGroup poco
    if selected then
      readArticles poco
      pure (.inl ())
    else
      pure (.inr ())) ()

/-- `main`: the exit code. The reader is destroyed before the exception is handled. -/
def main : Method π α ℕ := do
  let result ← Prog.attempt (do
    construct poco
    readGroups poco)
  match result with
  -- no exception, so nothing catches it
  | .error .undefined => Prog.throw .undefined
  | .error _ =>
    inSession (destroy poco)
    pure 1
  | .ok _ =>
    inSession (destroy poco)
    pure 0

end NewsReader

end NntpPoco
