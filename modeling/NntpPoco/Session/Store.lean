import Mathlib.Data.List.Nodup
import NntpPoco.Session.Cut
import NntpPoco.Session.Dialogue
import NntpPoco.Session.Listing

/-!
# `Session.Store` — newsgroups on a server

What a session is for: there are newsgroups on a server, and its user gets to see them. A `Newsgroup` is
one that fits on the wire. `Publishes` says how a server gives out a list of them, and what the commands
make of that is what there is on the server (`Publishes.listed`, `Publishes.grouped`,
`Publishes.verdict`, `Publishes.fetched`). `Server.publishing` is such a server, for every list.
-/

namespace NntpPoco

open Lines NNTPClientSession

variable {π μ α : Type} {poco : Poco π μ α} {server : Server π}

/-! ## A command has one response -/

theorem Operation.Answers.unique {op : Operation} {r r' : Response} (h : op.Answers r)
    (h' : op.Answers r') (hencode : r.encode = r'.encode) : r = r' := by
  obtain ⟨hstatus, hbody⟩ :=
    line_unique h.statusLine.breakFree h'.statusLine.breakFree hencode
  cases h with
  | single _ hop =>
      cases h' with
      | single _ _ => exact congrArg Response.line hstatus
      | refused _ hop' _ => exact absurd (hop.symm.trans hop') (by simp)
      | accepted _ hop' _ _ => exact absurd (hop.symm.trans hop') (by simp)
  | refused _ hop hrefused =>
      cases h' with
      | single _ _ => exact congrArg Response.line hstatus
      | refused _ _ _ => exact congrArg Response.line hstatus
      | accepted _ _ haccepted _ =>
          obtain rfl : _ = _ := hstatus
          exact absurd (hrefused.symm.trans haccepted) (by simp)
  | accepted _ hop haccepted hls =>
      cases h' with
      | single _ hop' => exact absurd (hop.symm.trans hop') (by simp)
      | refused _ _ hrefused =>
          obtain rfl : _ = _ := hstatus
          exact absurd (hrefused.symm.trans haccepted) (by simp)
      | accepted _ _ _ hls' =>
          obtain rfl : _ = _ := hstatus
          exact congrArg _ (encodeBlock_injective hls hls' hbody)

/-- An exchange with a response that is known. -/
theorem Speaks.answered {d d' : Dialogue π} {op : Operation} {x : Except Exception (Result α)}
    (h : Speaks poco server d (op, x) d') {p : π} {r : Response} (hr : op.Answers r)
    (hreact : server.react d.1 op.line = (p, r.encode, false)) :
    d'.1 = p ∧ ∃ message content, (4 ≤ r.status.length → message = r.status) ∧
      Poco.TextOf r.lines content ∧ x = op.meaning poco r message content ∧
      d'.2 = op.members poco r message d.2 := by
  obtain ⟨r', message, content, hr', hreact', hmessage, hcontent, hx, hmembers⟩ := h.inv
  rw [hreact] at hreact'
  obtain ⟨rfl, hencode, _⟩ : p = d'.1 ∧ r.encode = r'.encode ∧ True := by
    simpa using hreact'
  obtain rfl := hr.unique hr' hencode
  exact ⟨rfl, message, content, hmessage, hcontent, hx, hmembers⟩

/-! ## Newsgroups -/

/-- A newsgroup that fits on the wire: its line in a listing is a name, white space and a description,
    and does not begin with a dot; the articles are made of lines. -/
structure Newsgroup where
  entry : Entry
  numArticles : UInt32
  lowArticle : UInt32
  highArticle : UInt32
  article : UInt32 → Option (List Bytes)
  name_ne_nil : entry.name ≠ []
  description_ne_nil : entry.description ≠ []
  line_breakFree : BreakFree entry.line
  line_noDot : entry.line.head? ≠ some LineSyntax.dot
  article_breakFree : ∀ n ls, article n = some ls → ∀ l ∈ ls, BreakFree l

namespace Newsgroup

def name (g : Newsgroup) : Bytes := g.entry.name

def desc (g : Newsgroup) : GroupDesc := g.entry.desc

/-- Its line in a listing. -/
def line (g : Newsgroup) : Bytes := g.entry.line

/-- The status line of an accepted GROUP. -/
def reply (g : Newsgroup) : Bytes :=
  text "211" ++ 32 :: (Bytes.ofUInt g.numArticles ++ 32 :: (Bytes.ofUInt g.lowArticle ++
    32 :: (Bytes.ofUInt g.highArticle ++ 32 :: g.name)))

/-- What a session knows of it once it is selected. -/
def active (g : Newsgroup) : ActiveNewsGroup :=
  ⟨g.name, g.numArticles, g.lowArticle, g.highArticle⟩

/-- There is an article with this number. -/
def Has (g : Newsgroup) (n : UInt32) : Prop := (g.article n).isSome = true

instance (g : Newsgroup) : DecidablePred g.Has := fun n =>
  inferInstanceAs (Decidable ((g.article n).isSome = true))

variable (g : Newsgroup)

theorem name_breakFree : BreakFree g.name :=
  g.line_breakFree.of_isPrefix (List.prefix_append _ _)

theorem noSpace_ofUInt (n : UInt32) : (32 : UInt8) ∉ Bytes.ofUInt n := not_mem_ofNat (by decide) _

theorem reply_statusLine : StatusLine g.reply := by
  have hspace : ∀ {l : Bytes}, BreakFree l → BreakFree (32 :: l) :=
    fun h => breakFree_cons.mpr ⟨by decide, h⟩
  constructor
  · have hcode : BreakFree (text "211") := by decide
    refine breakFree_append.mpr ⟨hcode, hspace ?_⟩
    refine breakFree_append.mpr ⟨breakFree_ofUInt _, hspace ?_⟩
    refine breakFree_append.mpr ⟨breakFree_ofUInt _, hspace ?_⟩
    exact breakFree_append.mpr ⟨breakFree_ofUInt _, hspace g.name_breakFree⟩
  · rfl

/-- **The reply to GROUP is read back**, with all its numbers. -/
theorem groupReply_reply (htokenizes : poco.Tokenizes) (hparses : poco.ParsesUnsigned) :
    groupReply poco g.name g.reply = .ok g.active := by
  have htokens : replyTokens g.reply = text "211" :: Bytes.ofUInt g.numArticles ::
      Bytes.ofUInt g.lowArticle :: Bytes.ofUInt g.highArticle :: g.name.splitOn 32 := by
    rw [reply, replyTokens_cons (by decide), List.splitOn_append_cons_self_of_not_mem (noSpace_ofUInt _),
      List.splitOn_append_cons_self_of_not_mem (noSpace_ofUInt _),
      List.splitOn_append_cons_self_of_not_mem (noSpace_ofUInt _)]
  have hfield : ∀ {index : ℕ} {n : UInt32},
      (replyTokens g.reply)[index]? = some (Bytes.ofUInt n) →
      groupField poco g.reply index = .ok n := by
    intro index n hindex
    apply groupField_of_some htokenizes
    rw [replyNumber, hindex, Option.bind_some, parseUnsigned_ofUInt hparses]
    rfl
  have hnum : groupField poco g.reply 1 = .ok g.numArticles := hfield (by rw [htokens]; rfl)
  have hlow : groupField poco g.reply 2 = .ok g.lowArticle := hfield (by rw [htokens]; rfl)
  have hhigh : groupField poco g.reply 3 = .ok g.highArticle := hfield (by rw [htokens]; rfl)
  unfold groupReply
  rw [hnum, hlow, hhigh]
  rfl

/-- **A listing is read back**, names and descriptions. -/
theorem mapM_groupDesc_lines (store : List Newsgroup) :
    ((store.map line).map stuff).mapM groupDesc = .ok (store.map desc) := by
  have hstuff : (store.map line).map stuff = store.map line := by
    rw [map_stuff_eq_self_iff]
    intro l hl
    obtain ⟨g, _, rfl⟩ := List.mem_map.mp hl
    exact g.line_noDot
  have hdangling : ∀ l ∈ store.map line, ¬ Fields.Dangling isBlank l := by
    intro l hl
    obtain ⟨g, _, rfl⟩ := List.mem_map.mp hl
    exact mt g.entry.dangling_line.mp g.description_ne_nil
  rw [hstuff, mapM_groupDesc, if_pos hdangling, List.map_map]
  congr 1
  exact List.map_congr_left fun g _ => g.entry.descOf_line

end Newsgroup

/-! ## Publishing -/

/-- The server gives out the groups of `store`: it lists them for `wildMat`, selects them by their names,
    and has the articles of the group that is selected. -/
structure Publishes (server : Server π) (wildMat : Bytes) (store : List Newsgroup)
    (selected : π → Option Newsgroup) : Prop where
  list : ∀ p, ∃ l p', StatusLine l ∧ isPositiveCompletion (statusOf l) = true ∧
    server.react p (Operation.listNewsGroups wildMat).line =
      (p', (Response.block l (store.map Newsgroup.line)).encode, false)
  group : ∀ p, ∀ g ∈ store, ∃ p', selected p' = some g ∧
    server.react p (Operation.selectNewsGroup g.name).line =
      (p', (Response.line g.reply).encode, false)
  stat : ∀ p g n, selected p = some g → ∃ l p', StatusLine l ∧
    (isPositiveCompletion (statusOf l) = true ↔ g.Has n) ∧ selected p' = some g ∧
    server.react p (Operation.stat n).line = (p', (Response.line l).encode, false)
  article : ∀ p g n ls, selected p = some g → g.article n = some ls → ∃ l p', StatusLine l ∧
    isPositiveCompletion (statusOf l) = true ∧ selected p' = some g ∧
    server.react p (Operation.articleNumber n).line = (p', (Response.block l ls).encode, false)

namespace Publishes

variable {wildMat : Bytes} {store : List Newsgroup} {selected : π → Option Newsgroup}
  {d d' : Dialogue π} {x : Except Exception (Result α)}

/-- The groups that are listed are those of the store. -/
theorem listed (h : Publishes server wildMat store selected)
    (hspeaks : Speaks poco server d (.listNewsGroups wildMat, x) d') :
    x = .ok (.groups (store.map Newsgroup.desc)) := by
  obtain ⟨l, p', hl, hstatus, hreact⟩ := h.list d.1
  have hlines : ∀ line ∈ store.map Newsgroup.line, BreakFree line := by
    intro line hline
    obtain ⟨g, _, rfl⟩ := List.mem_map.mp hline
    exact g.line_breakFree
  have hr : (Operation.listNewsGroups wildMat).Answers (.block l (store.map Newsgroup.line)) :=
    .accepted hl rfl hstatus hlines
  obtain ⟨_, message, content, _, _, rfl, _⟩ := hspeaks.answered hr hreact
  rw [Operation.meaning_accepted (.listNewsGroups wildMat) (.block l _) hstatus]
  show (((store.map Newsgroup.line).map stuff).mapM groupDesc).map Result.groups = _
  rw [Newsgroup.mapM_groupDesc_lines]
  rfl

/-- A group that is selected is that of the store. -/
theorem grouped (h : Publishes server wildMat store selected) (htokenizes : poco.Tokenizes)
    (hparses : poco.ParsesUnsigned) {g : Newsgroup} (hg : g ∈ store)
    (hspeaks : Speaks poco server d (.selectNewsGroup g.name, x) d') :
    x = .ok (.active g.active) ∧ selected d'.1 = some g := by
  obtain ⟨p', hp', hreact⟩ := h.group d.1 g hg
  have hr : (Operation.selectNewsGroup g.name).Answers (.line g.reply) :=
    .single g.reply_statusLine rfl
  obtain ⟨rfl, message, content, hmessage, _, rfl, _⟩ := hspeaks.answered hr hreact
  refine ⟨?_, hp'⟩
  obtain rfl : message = g.reply := hmessage (by simp [Response.status, Newsgroup.reply, text])
  rw [Operation.meaning_accepted (.selectNewsGroup g.name) (.line g.reply) rfl]
  show (groupReply poco g.name g.reply).map Result.active = _
  rw [g.groupReply_reply htokenizes hparses]
  rfl

/-- STAT says whether there is an article with the number. -/
theorem verdict (h : Publishes server wildMat store selected) {g : Newsgroup} {n : UInt32}
    (hd : selected d.1 = some g) (hspeaks : Speaks poco server d (.stat n, x) d') :
    x = .ok (.verdict (decide (g.Has n))) ∧ selected d'.1 = some g := by
  obtain ⟨l, p', hl, hstatus, hp', hreact⟩ := h.stat d.1 g n hd
  have hr : (Operation.stat n).Answers (.line l) := .single hl rfl
  obtain ⟨rfl, message, content, _, _, rfl, _⟩ := hspeaks.answered hr hreact
  refine ⟨?_, hp'⟩
  by_cases hn : g.Has n
  · rw [Operation.meaning_accepted (.stat n) (.line l) (hstatus.mpr hn), decide_eq_true hn]
    rfl
  · rw [Operation.meaning_refused (.stat n) (.line l) (Bool.eq_false_iff.mpr (mt hstatus.mp hn)),
      decide_eq_false hn]
    rfl

/-- ARTICLE gives the lines of the article to the parser. -/
theorem fetched (h : Publishes server wildMat store selected) {g : Newsgroup} {n : UInt32}
    {ls : List Bytes} (hd : selected d.1 = some g) (hn : g.article n = some ls)
    (hspeaks : Speaks poco server d (.articleNumber n, x) d') :
    selected d'.1 = some g ∧ ∃ content, Poco.TextOf ls content ∧
      x = (poco.read.run [] content).result.map Result.article := by
  obtain ⟨l, p', hl, hstatus, hp', hreact⟩ := h.article d.1 g n ls hd hn
  have hr : (Operation.articleNumber n).Answers (.block l ls) :=
    .accepted hl rfl hstatus (g.article_breakFree n ls hn)
  obtain ⟨rfl, message, content, _, hcontent, rfl, _⟩ := hspeaks.answered hr hreact
  refine ⟨hp', content, hcontent, ?_⟩
  rw [Operation.meaning_accepted (.articleNumber n) (.block l ls) hstatus]
  rfl

end Publishes

/-! ## A server that publishes -/

/-- What a command line asks for. -/
inductive Request
  | list
  | group (name : Bytes)
  | stat (number : UInt32)
  | article (number : UInt32)
  | other
  deriving DecidableEq, Repr

/-- The argument of a command line that begins with `command` and has one. -/
def argument (command line : Bytes) : Option Bytes :=
  if (command ++ [32]).isPrefixOf line then
    some (line.drop (command.length + 1)).dropLast.dropLast
  else none

/-- The number in an argument. -/
def numberOf (arg : Bytes) : UInt32 := UInt32.ofNat (Poco.decimal arg)

def Request.ofLine (line : Bytes) : Request :=
  match argument (text "LIST NEWSGROUPS") line with
  | some _ => .list
  | none =>
    match argument (text "GROUP") line with
    | some name => .group name
    | none =>
      match argument (text "STAT") line with
      | some arg => .stat (numberOf arg)
      | none =>
        match argument (text "ARTICLE") line with
        | some arg => .article (numberOf arg)
        | none => .other

/-- The response to a request, with the group selected behind it. -/
def respond (store : List Newsgroup) (selected : Option Newsgroup) :
    Request → Option Newsgroup × Response
  | .list => (selected, .block (text "215 list of newsgroups follows") (store.map Newsgroup.line))
  | .group name =>
    match store.find? fun g => g.name = name with
    | some g => (some g, .line g.reply)
    | none => (selected, .line (text "411 no such newsgroup"))
  | .stat n =>
    match selected.bind fun g => g.article n with
    | some _ => (selected, .line (text "223 article exists"))
    | none => (selected, .line (text "423 no article with that number"))
  | .article n =>
    match selected.bind fun g => g.article n with
    | some ls => (selected, .block (text "220 article follows") ls)
    | none => (selected, .line (text "423 no article with that number"))
  | .other => (selected, .line (text "500 unknown command"))

/-- A server that has the groups of `store`. -/
def Server.publishing (store : List Newsgroup) : Server (Option Newsgroup) where
  react selected line :=
    let x := respond store selected (Request.ofLine line)
    (x.1, x.2.encode, false)

theorem argument_commandLine (command : Bytes) {arg : Bytes} (harg : arg ≠ []) :
    argument command (commandLine command arg) = some arg := by
  have hline : commandLine command arg = (command ++ [32]) ++ (arg ++ crlf) := by
    simp [commandLine, harg]
  have hlength : command.length + 1 = (command ++ [(32 : UInt8)]).length := by simp
  rw [hline, argument, if_pos (by simp), hlength, List.drop_left]
  simp [crlf, List.dropLast_append_of_ne_nil]

/-- A line of another command, told apart by its first letter. -/
theorem argument_other {command command' : Bytes} (hcommand : command ≠ []) (hcommand' : command' ≠ [])
    (h : command.head? ≠ command'.head?) (arg : Bytes) :
    argument command (commandLine command' arg) = none := by
  obtain ⟨b, rest, rfl⟩ := List.exists_cons_of_ne_nil hcommand
  obtain ⟨b', rest', rfl⟩ := List.exists_cons_of_ne_nil hcommand'
  unfold argument
  apply if_neg
  rw [List.isPrefixOf_iff_prefix]
  rintro ⟨k, hk⟩
  exact h (congrArg some (List.cons.inj hk).1)

namespace Request

theorem ofUInt_ne_nil (n : UInt32) : Bytes.ofUInt n ≠ [] := (isDecimal_ofNat _).1

theorem numberOf_ofUInt (n : UInt32) : numberOf (Bytes.ofUInt n) = n := by
  rw [numberOf, Bytes.ofUInt, decimal_ofNat, UInt32.ofNat_toNat]

theorem ofLine_list {wildMat : Bytes} (h : wildMat ≠ []) :
    ofLine (Operation.listNewsGroups wildMat).line = .list := by
  rw [ofLine, Operation.line, argument_commandLine _ h]

theorem ofLine_group {name : Bytes} (h : name ≠ []) :
    ofLine (Operation.selectNewsGroup name).line = .group name := by
  rw [ofLine, Operation.line, argument_other (by decide) (by decide) (by decide),
    argument_commandLine _ h]

theorem ofLine_stat (n : UInt32) : ofLine (Operation.stat n).line = .stat n := by
  rw [ofLine, Operation.line, argument_other (by decide) (by decide) (by decide),
    argument_other (by decide) (by decide) (by decide), argument_commandLine _ (ofUInt_ne_nil n)]
  exact congrArg stat (numberOf_ofUInt n)

theorem ofLine_article (n : UInt32) : ofLine (Operation.articleNumber n).line = .article n := by
  rw [ofLine, Operation.line, argument_other (by decide) (by decide) (by decide),
    argument_other (by decide) (by decide) (by decide),
    argument_other (by decide) (by decide) (by decide), argument_commandLine _ (ofUInt_ne_nil n)]
  exact congrArg article (numberOf_ofUInt n)

end Request

namespace Server

variable {store : List Newsgroup}

theorem publishing_react (store : List Newsgroup) (selected : Option Newsgroup) {line : Bytes} {request : Request}
    (h : Request.ofLine line = request) :
    (publishing store).react selected line =
      ((respond store selected request).1, (respond store selected request).2.encode, false) := by
  subst h
  rfl

theorem breakFree_lines (store : List Newsgroup) : ∀ l ∈ store.map Newsgroup.line, BreakFree l := by
  intro l hl
  obtain ⟨g, _, rfl⟩ := List.mem_map.mp hl
  exact g.line_breakFree

theorem statusLine_unknown : StatusLine (text "500 unknown command") := ⟨by decide, rfl⟩

theorem statusLine_noArticle : StatusLine (text "423 no article with that number") := ⟨by decide, rfl⟩

theorem statusLine_exists : StatusLine (text "223 article exists") := ⟨by decide, rfl⟩

theorem statusLine_article : StatusLine (text "220 article follows") := ⟨by decide, rfl⟩

theorem statusLine_list : StatusLine (text "215 list of newsgroups follows") := ⟨by decide, rfl⟩

/-- **It answers every command.** -/
theorem publishing_conforms (store : List Newsgroup) : (publishing store).Conforms := by
  intro selected op _
  have hanswer : ∀ {request}, Request.ofLine op.line = request →
      op.Answers (respond store selected request).2 →
      ∃ r, op.Answers r ∧ ((publishing store).react selected op.line).2 = (r.encode, false) :=
    fun hrequest hr => ⟨_, hr, by rw [publishing_react store selected hrequest]⟩
  have hother : op.hasBlock = true → op.accepts 500 = false →
      op.Answers (respond store selected .other).2 :=
    fun hop haccepts => .refused statusLine_unknown hop haccepts
  cases op with
  | capabilities => exact hanswer (show _ = Request.other by decide) (hother rfl rfl)
  | articleHeader => exact hanswer (show _ = Request.other by decide) (hother rfl rfl)
  | articleRaw => exact hanswer (show _ = Request.other by decide) (hother rfl rfl)
  | article => exact hanswer (show _ = Request.other by decide) (hother rfl rfl)
  | listNewsGroups wildMat =>
      by_cases hw : wildMat = []
      · subst hw
        exact hanswer (show _ = Request.other by decide) (hother rfl rfl)
      · exact hanswer (Request.ofLine_list hw)
          (.accepted statusLine_list rfl rfl (breakFree_lines store))
  | selectNewsGroup name =>
      by_cases hname : name = []
      · subst hname
        exact hanswer (show _ = Request.other by decide) (.single statusLine_unknown rfl)
      · apply hanswer (Request.ofLine_group hname)
        have hnone : StatusLine (text "411 no such newsgroup") := ⟨by decide, rfl⟩
        simp only [respond]
        cases store.find? fun g => g.name = name with
        | none => exact .single hnone rfl
        | some g => exact .single g.reply_statusLine rfl
  | stat n =>
      apply hanswer (Request.ofLine_stat n)
      simp only [respond]
      cases selected.bind fun g => g.article n with
      | none => exact .single statusLine_noArticle rfl
      | some ls => exact .single statusLine_exists rfl
  | articleNumber n =>
      apply hanswer (Request.ofLine_article n)
      simp only [respond]
      cases harticle : selected.bind fun g => g.article n with
      | none => exact .refused statusLine_noArticle rfl rfl
      | some ls =>
          obtain ⟨g, _, hls⟩ := Option.bind_eq_some_iff.mp harticle
          exact .accepted statusLine_article rfl rfl (g.article_breakFree n ls hls)

theorem find?_name (hstore : (store.map Newsgroup.name).Nodup) {g : Newsgroup} (hg : g ∈ store) :
    (store.find? fun g' => g'.name = g.name) = some g := by
  cases hfind : store.find? fun g' => g'.name = g.name with
  | none => exact absurd (List.find?_eq_none.mp hfind g hg) (by simp)
  | some g' =>
      have hname : g'.name = g.name := by simpa using List.find?_some hfind
      rw [List.inj_on_of_nodup_map hstore (List.mem_of_find?_eq_some hfind) hg hname]

/-- **It publishes its store.** -/
theorem publishing_publishes (hstore : (store.map Newsgroup.name).Nodup) {wildMat : Bytes}
    (hw : wildMat ≠ []) : Publishes (publishing store) wildMat store id where
  list selected :=
    ⟨_, selected, statusLine_list, rfl, publishing_react store selected (Request.ofLine_list hw)⟩
  group selected g hg := by
    refine ⟨some g, rfl, ?_⟩
    have hreact := publishing_react store selected
      (Request.ofLine_group (show g.name ≠ [] from g.name_ne_nil))
    rw [respond, find?_name hstore hg] at hreact
    exact hreact
  stat selected g n hselected := by
    obtain rfl : selected = some g := hselected
    have hreact := publishing_react store (some g) (Request.ofLine_stat n)
    rw [respond, Option.bind_some] at hreact
    unfold Newsgroup.Has
    cases harticle : g.article n with
    | none =>
        rw [harticle] at hreact
        exact ⟨_, _, statusLine_noArticle, iff_of_false (by decide) (by simp), rfl, hreact⟩
    | some ls =>
        rw [harticle] at hreact
        exact ⟨_, _, statusLine_exists, iff_of_true rfl rfl, rfl, hreact⟩
  article selected g n ls hselected hn := by
    obtain rfl : selected = some g := hselected
    have hreact := publishing_react store (some g) (Request.ofLine_article n)
    rw [respond, Option.bind_some, hn] at hreact
    exact ⟨_, _, statusLine_article, rfl, rfl, hreact⟩

end Server

end NntpPoco
