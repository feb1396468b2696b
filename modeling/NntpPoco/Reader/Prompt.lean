import NntpPoco.Reader.Invariant

/-!
# `Reader.Prompt` — which line a menu takes

`selectGroup` and `selectArticle` show their menu and read a line until one of them decides: `q`, or a
number from the menu (`Decides`). Both loops are the same loop over the lines of the console
(`Prompts`), with a parser and a test of its own. A line the parser reads as a number that is not on the
menu leads to another prompt; a line it does not read ends the loop by an exception.
`first_deciding_line_iff` says when the first deciding line is the one that decides.
-/

namespace NntpPoco

open Prog NNTPClientSession

variable {π μ α β : Type} {poco : Poco π μ α}

namespace NewsReader

/-! ## Lines -/

section Line

variable (number : Bytes → Except Exception β) (valid : β → Bool)

/-- The parser reads a number in the line. -/
def Parses (line : Bytes) : Prop := ∃ n, number line = .ok n

/-- The line ends the loop: it is `q`, or it names an entry of the menu. -/
def Decides (line : Bytes) : Prop := line = text "q" ∨ ∃ n, number line = .ok n ∧ valid n = true

/-- What the loop makes of a line: another round, a choice (`none` for `q`) or an exception. -/
def judge (line : Bytes) : Except Exception (Unit ⊕ Option β) :=
  if line = text "q" then .ok (.inr none)
  else (number line).map fun n => if valid n then .inr (some n) else .inl ()

variable {number valid} {line : Bytes}

theorem judge_q : judge number valid (text "q") = .ok (.inr none) := rfl

theorem judge_number (hq : line ≠ text "q") {n : β} (hn : number line = .ok n)
    (hvalid : valid n = true) : judge number valid line = .ok (.inr (some n)) := by
  rw [judge, if_neg hq, hn]
  simp [Except.map, hvalid]

/-- A line that does not decide is asked again, if it is a number at all. -/
theorem judge_again (hline : ¬ Decides number valid line) (hn : Parses number line) :
    judge number valid line = .ok (.inl ()) := by
  obtain ⟨hq, hnames⟩ := not_or.mp hline
  obtain ⟨n, hn⟩ := hn
  have hvalid : valid n = false := Bool.eq_false_iff.mpr fun h => hnames ⟨n, hn, h⟩
  rw [judge, if_neg hq, hn]
  simp [Except.map, hvalid]

/-- Otherwise it throws. -/
theorem judge_throws (hline : ¬ Decides number valid line) (hn : ¬ Parses number line) :
    ∃ e, judge number valid line = .error e := by
  obtain ⟨hq, _⟩ := not_or.mp hline
  cases he : number line with
  | ok n => exact absurd ⟨n, he⟩ hn
  | error e => exact ⟨e, by rw [judge, if_neg hq, he]; rfl⟩

/-- A number that is taken is on the menu. -/
theorem judge_selects {number : Bytes → Except Exception β} {valid : β → Bool} {line : Bytes} {n : β}
    (h : judge number valid line = .ok (.inr (some n))) : valid n = true := by
  unfold judge at h
  split at h
  · exact absurd h (by simp)
  · cases hn : number line with
    | error e =>
        rw [hn] at h
        exact absurd h (by simp [Except.map])
    | ok m =>
        rw [hn] at h
        cases hvalid : valid m with
        | false => exact absurd h (by simp [Except.map, hvalid])
        | true =>
            have hm : m = n := by simpa [Except.map, hvalid] using h
            rw [← hm]
            exact hvalid

end Line

/-- Among some lines there is a first one that is no number, or there is none. -/
theorem parses_or_first (number : Bytes → Except Exception β) (lines : List Bytes) :
    (∀ l ∈ lines, Parses number l) ∨ ∃ good bad more, lines = good ++ bad :: more ∧
      (∀ l ∈ good, Parses number l) ∧ ¬ Parses number bad := by
  induction lines with
  | nil => exact Or.inl fun _ hl => absurd hl List.not_mem_nil
  | cons l lines ih =>
      by_cases hl : Parses number l
      · rcases ih with hall | ⟨good, bad, more, rfl, hgood, hbad⟩
        · exact Or.inl (List.forall_mem_cons.mpr ⟨hl, hall⟩)
        · exact Or.inr ⟨l :: good, bad, more, rfl, List.forall_mem_cons.mpr ⟨hl, hgood⟩, hbad⟩
      · exact Or.inr ⟨[], l, lines, rfl, fun _ h => absurd h List.not_mem_nil, hl⟩

/-! ## Prompts -/

/-- The reader once a menu has been shown for each of `lines`, with `rest` still to be read. -/
def asked (r : NewsReader π α) (menu : List Output) (lines rest : List Bytes) : NewsReader π α :=
  { r with cin := rest, cout := r.cout ++ lines.flatMap fun _ => menu }

theorem asked_nil {r : NewsReader π α} {menu : List Output} {rest : List Bytes} (h : r.cin = rest) :
    r.asked menu [] rest = r := by
  subst h
  simp [asked]

/-- One more line. -/
theorem asked_snoc (r : NewsReader π α) (menu : List Output) (lines : List Bytes) (line : Bytes)
    (rest : List Bytes) : { r.asked menu lines (line :: rest) with
      cin := rest, cout := (r.asked menu lines (line :: rest)).cout ++ menu } =
      r.asked menu (lines ++ [line]) rest := by
  simp [asked]

/-- A round of a menu loop, on the members of `r`: it shows the menu, takes a line and judges it. -/
def Prompts (round : Method π α (Unit ⊕ β)) (menu : List Output)
    (verdict : Bytes → Except Exception (Unit ⊕ β)) (r : NewsReader π α) : Prop :=
  ∀ (lines : List Bytes) (line : Bytes) (rest : List Bytes),
    round.Evals (r.asked menu lines (line :: rest)) (verdict line)
      (r.asked menu (lines ++ [line]) rest)

section Prompts

variable {round : Unit → Method π α (Unit ⊕ β)} {menu : List Output}
  {verdict : Bytes → Except Exception (Unit ⊕ β)} {r : NewsReader π α}

/-- **The loop goes through the lines that lead to another round, and stops at the first that does
    not.** -/
theorem Prompts.loop_evals (h : Prompts (round ()) menu verdict r) {before : List Bytes}
    {line : Bytes} {rest : List Bytes} {x : Except Exception β}
    (hbefore : ∀ l ∈ before, verdict l = .ok (.inl ())) (hline : verdict line = x.map .inr)
    (lines : List Bytes) :
    (loop round ()).Evals (r.asked menu lines (before ++ line :: rest)) x
      (r.asked menu (lines ++ (before ++ [line])) rest) := by
  -- on the lines before; `lines` are those already read
  induction before generalizing lines with
  | nil =>
      have hround := h lines line rest
      rw [hline] at hround
      cases x with
      | ok a => exact hround.loop_exit
      | error e => exact hround.loop_error
  | cons l before ih =>
      have hround := h lines l (before ++ line :: rest)
      rw [hbefore l List.mem_cons_self] at hround
      have hloop := ih (fun l' hl' => hbefore l' (List.mem_cons_of_mem _ hl')) (lines ++ [l])
      rw [List.append_assoc] at hloop
      exact hround.loop_again hloop

/-- The same from the reader itself. -/
theorem Prompts.evals (h : Prompts (round ()) menu verdict r) {before : List Bytes}
    {line : Bytes} {rest : List Bytes} {x : Except Exception β}
    (hcin : r.cin = before ++ line :: rest) (hbefore : ∀ l ∈ before, verdict l = .ok (.inl ()))
    (hline : verdict line = x.map .inr) :
    (loop round ()).Evals r x (r.asked menu (before ++ [line]) rest) := by
  have hloop : (loop round ()).Evals (r.asked menu [] (before ++ line :: rest)) x _ :=
    h.loop_evals hbefore hline []
  rwa [asked_nil hcin] at hloop

section Judged

variable {round : Unit → Method π α (Unit ⊕ Option β)} {number : Bytes → Except Exception β}
  {valid : β → Bool} {before : List Bytes} {line : Bytes} {rest : List Bytes}

/-- Where every line before it is a number, a deciding line is taken. -/
theorem Prompts.takes (h : Prompts (round ()) menu (judge number valid) r)
    (hcin : r.cin = before ++ line :: rest) (hbefore : ∀ l ∈ before, ¬ Decides number valid l)
    (hparses : ∀ l ∈ before, Parses number l) {choice : Option β}
    (hline : judge number valid line = .ok (.inr choice)) :
    (loop round ()).Evals r (.ok choice) (r.asked menu (before ++ [line]) rest) :=
  h.evals (x := .ok choice) hcin (fun l hl => judge_again (hbefore l hl) (hparses l hl)) hline

/-- Otherwise the loop ends by an exception at the first line that is no number, the deciding one still
    to be read. -/
theorem Prompts.throws (h : Prompts (round ()) menu (judge number valid) r)
    (hcin : r.cin = before ++ line :: rest) (hbefore : ∀ l ∈ before, ¬ Decides number valid l)
    (hnumbers : ¬ ∀ l ∈ before, Parses number l) :
    ∃ e lines more, (loop round ()).Evals r (.error e) (r.asked menu lines (more ++ line :: rest)) := by
  obtain ⟨good, bad, more, rfl, hgood, hbad⟩ := (parses_or_first number before).resolve_left hnumbers
  have hcin' : r.cin = good ++ bad :: (more ++ line :: rest) := by simpa using hcin
  have hagain : ∀ l ∈ good, judge number valid l = .ok (.inl ()) :=
    fun l hl => judge_again (hbefore l (List.mem_append_left _ hl)) (hgood l hl)
  obtain ⟨e, he⟩ := judge_throws (hbefore bad (by simp)) hbad
  exact ⟨e, good ++ [bad], more, h.evals (x := .error e) hcin' hagain he⟩

end Judged

/-- A menu and the line typed to it; once the input has ended, it is empty. -/
theorem menu_getline {k : Bytes → Method π α β} {r t : NewsReader π α} {x : Except Exception β} :
    (print menu >>= fun _ => getline >>= k).Evals r x t ↔
      (k (r.cin.headD [])).Evals { r with cin := r.cin.tail, cout := r.cout ++ menu } x t := by
  have hline : (getline : Method π α Bytes).Evals { r with cout := r.cout ++ menu }
      (.ok (r.cin.headD [])) { r with cin := r.cin.tail, cout := r.cout ++ menu } := evals_lift.mpr rfl
  unfold print
  rw [evals_modify_bind, hline.bind_iff]

/-- A line judged the way both loops do it, with `k` for the test of the number. -/
theorem judge_evals {number : Bytes → Except Exception β} {valid : β → Bool} {line : Bytes}
    {k : β → Method π α (Unit ⊕ Option β)} {r : NewsReader π α}
    (hk : ∀ n, (k n).Evals r (.ok (if valid n then .inr (some n) else .inl ())) r) :
    (if line = text "q" then pure (.inr none) else Prog.ofExcept (number line) >>= k).Evals r
      (judge number valid line) r := by
  by_cases hq : line = text "q"
  · subst hq
    exact evals_return _ _
  · rw [if_neg hq, judge, if_neg hq]
    cases number line with
    | error e => exact Evals.bind_error (evals_ofExcept.mpr ⟨rfl, rfl⟩)
    | ok n => exact Evals.bind (evals_ofExcept.mpr ⟨rfl, rfl⟩) (hk n)

end Prompts

/-! ## The menu of `selectGroup` -/

/-- One round of the loop of `selectGroup`. -/
def groupPrompt (poco : Poco π μ α) (_ : Unit) : Method π α (Unit ⊕ Option Int) := do
  let r ← Prog.get
  match maxElement (fun desc : GroupDesc => desc.1.length) r.m_groupDescs with
  | none => Prog.throw .undefined
  | some pos =>
    print (groupMenu (pos.1.length + 1) r.m_groupDescs)
    let cmd ← getline
    if cmd = text "q" then
      pure (.inr none)
    else
      let group ← Prog.ofExcept (poco.parse cmd)
      if group < 1 ∨ group > r.m_groupDescs.length then
        pure (.inl ())
      else
        pure (.inr (some group))

theorem chooseGroup_eq : chooseGroup poco = loop (groupPrompt poco) () := rfl

/-- The menu of the groups `descs`, as it is printed. -/
def groupsPage (descs : List GroupDesc) : List Output :=
  match maxElement (fun desc : GroupDesc => desc.1.length) descs with
  | none => []
  | some pos => groupMenu (pos.1.length + 1) descs

/-- The numbers on it. -/
def isPlace (descs : List GroupDesc) (group : Int) : Bool := decide (1 ≤ group ∧ group ≤ descs.length)

/-- The menu of `selectGroup`. -/
def groupPage (r : NewsReader π α) : List Output := groupsPage r.m_groupDescs

def isGroup (r : NewsReader π α) (group : Int) : Bool := isPlace r.m_groupDescs group

/-- **A round of `selectGroup`.** -/
theorem groupPrompt_round {r : NewsReader π α} (hne : r.m_groupDescs ≠ []) :
    (groupPrompt poco ()).Evals r (judge poco.parse r.isGroup (r.cin.headD []))
      { r with cin := r.cin.tail, cout := r.cout ++ r.groupPage } := by
  have hmax : maxElement (fun desc : GroupDesc => desc.1.length) r.m_groupDescs ≠ none :=
    mt maxElement_eq_none_iff.mp hne
  obtain ⟨pos, hpos⟩ := Option.ne_none_iff_exists'.mp hmax
  have hpage : r.groupPage = groupMenu (pos.1.length + 1) r.m_groupDescs := by
    rw [groupPage, groupsPage, hpos]
  unfold groupPrompt
  rw [evals_get_bind, hpos, hpage]
  apply menu_getline.mpr
  apply judge_evals
  intro group
  show (if group < 1 ∨ group > r.m_groupDescs.length then pure (.inl ())
    else pure (.inr (some group)) : Method π α (Unit ⊕ Option Int)).Evals _ _ _
  by_cases hgroup : 1 ≤ group ∧ group ≤ r.m_groupDescs.length
  · rw [if_neg (by omega), isGroup, isPlace, decide_eq_true hgroup]
    exact evals_return _ _
  · rw [if_pos (by omega), isGroup, isPlace, decide_eq_false hgroup]
    exact evals_return _ _

theorem groupPrompt_prompts {r : NewsReader π α} (hne : r.m_groupDescs ≠ []) :
    Prompts (groupPrompt poco ()) r.groupPage (judge poco.parse r.isGroup) r := by
  intro lines line rest
  rw [← asked_snoc]
  exact groupPrompt_round hne

/-! ## The menu of `selectArticle` -/

/-- Every entry of `m_articles` points to an article. -/
def NoNull (r : NewsReader π α) : Prop :=
  ∀ (n : UInt32) (v : Option α), r.m_articles[n]? = some v → v ≠ none

/-- Some articles of a group, by their numbers. -/
abbrev Shelf (α : Type) := Std.TreeMap UInt32 (Option α)

/-- The menu of the articles on a shelf, as far as it can be printed. -/
def shelfPage (poco : Poco π μ α) (shelf : Shelf α) : Except Exception (List Output) :=
  match maxElement (fun x : UInt32 × Option α => (Bytes.ofUInt x.1).length) shelf.toList with
  | none => .error .undefined
  | some pos => articleMenu poco ((Bytes.ofUInt pos.1).length + 1) shelf.toList

/-- The numbers on it. -/
def isOnShelf (shelf : Shelf α) (number : UInt32) : Bool := decide (number ∈ shelf)

/-- The menu of `selectArticle`. -/
def articlePage (poco : Poco π μ α) (r : NewsReader π α) : Except Exception (List Output) :=
  shelfPage poco r.m_articles

def isArticle (r : NewsReader π α) (number : UInt32) : Bool := isOnShelf r.m_articles number

/-- The menu is printed unless there is a null pointer among the articles. -/
theorem articleMenu_cases (poco : Poco π μ α) (maxLength : ℕ) (entries : List (UInt32 × Option α)) :
    (∃ lines, articleMenu poco maxLength entries = .ok lines ∧ ∀ x ∈ entries, x.2 ≠ none) ∨
    (articleMenu poco maxLength entries = .error .undefined ∧ ∃ x ∈ entries, x.2 = none) := by
  induction entries with
  | nil => exact Or.inl ⟨_, rfl, fun _ hx => absurd hx List.not_mem_nil⟩
  | cons x entries ih =>
      obtain ⟨n, v⟩ := x
      cases v with
      | none => exact Or.inr ⟨rfl, _, List.mem_cons_self, rfl⟩
      | some a =>
          rcases ih with ⟨lines, hlines, hnull⟩ | ⟨herr, x, hx, hnull⟩
          · refine Or.inl ⟨_, by rw [articleMenu, hlines]; rfl, ?_⟩
            exact List.forall_mem_cons.mpr ⟨by simp, hnull⟩
          · exact Or.inr ⟨by rw [articleMenu, herr]; rfl, x, List.mem_cons_of_mem _ hx, hnull⟩

theorem noNull_iff {r : NewsReader π α} : r.NoNull ↔ ∀ x ∈ r.m_articles.toList, x.2 ≠ none := by
  constructor
  · rintro h ⟨n, v⟩ hx
    exact h n v (Std.TreeMap.mem_toList_iff_getElem?_eq_some.mp hx)
  · intro h n v hv
    exact h (n, v) (Std.TreeMap.mem_toList_iff_getElem?_eq_some.mpr hv)

/-- There is a longest number as soon as there is an article. -/
theorem maxElement_articles {r : NewsReader π α} (hne : r.m_articles.isEmpty = false) :
    ∃ pos, maxElement (fun x : UInt32 × Option α => (Bytes.ofUInt x.1).length)
      r.m_articles.toList = some pos := by
  refine Option.ne_none_iff_exists'.mp fun hnone => ?_
  have hnil := congrArg List.isEmpty (maxElement_eq_none_iff.mp hnone)
  rw [Std.TreeMap.isEmpty_toList, hne] at hnil
  exact absurd hnil (by simp)

/-- **A round of `selectArticle`.** -/
theorem articlePrompt_round {r : NewsReader π α} {menu : List Output}
    (hmenu : r.articlePage poco = .ok menu) :
    (articlePrompt poco ()).Evals r (judge poco.parseUnsigned r.isArticle (r.cin.headD []))
      { r with cin := r.cin.tail, cout := r.cout ++ menu } := by
  unfold articlePage shelfPage at hmenu
  unfold articlePrompt
  rw [evals_get_bind]
  cases hpos : maxElement (fun x : UInt32 × Option α => (Bytes.ofUInt x.1).length)
      r.m_articles.toList with
  | none =>
      rw [hpos] at hmenu
      exact absurd hmenu (by simp)
  | some pos =>
      rw [hpos] at hmenu
      apply Evals.bind (evals_ofExcept.mpr ⟨hmenu.symm, rfl⟩)
      apply menu_getline.mpr
      apply judge_evals
      intro number
      show (if number ∈ r.m_articles then pure (.inr (some number)) else pure (.inl ()) :
        Method π α (Unit ⊕ Option UInt32)).Evals _ _ _
      by_cases hmem : number ∈ r.m_articles
      · rw [if_pos hmem, isArticle, isOnShelf, decide_eq_true hmem]
        exact evals_return _ _
      · rw [if_neg hmem, isArticle, isOnShelf, decide_eq_false hmem]
        exact evals_return _ _

theorem articlePrompt_prompts {r : NewsReader π α} {menu : List Output}
    (hmenu : r.articlePage poco = .ok menu) :
    Prompts (articlePrompt poco ()) menu (judge poco.parseUnsigned r.isArticle) r := by
  intro lines line rest
  rw [← asked_snoc]
  exact articlePrompt_round hmenu

/-! ## Behind the menu of `selectGroup` -/

/-- What `selectGroup` does once `m_currentGroup` is set: GROUP, and then STAT and ARTICLE. -/
def loadGroup (poco : Poco π μ α) : Method π α Unit := do
  let r ← Prog.get
  let activeGroup ← inSession (selectNewsGroup poco r.m_currentGroup)
  Prog.modify fun r => { r with m_activeGroup := activeGroup }
  getArticles poco

section Frame

variable {I : NewsReader π α → Prop}

theorem inSession_keeps (hI : ∀ (r : NewsReader π α) (s : NNTPClientSession π), I r →
    I { r with m_session := s }) (p : NNTPClientSession.Method π β) : Keeps I (inSession p) :=
  Keeps.zoom fun r _ s hr _ => hI r s hr

/-- `getArticles` changes the session and the articles only. -/
theorem getArticles_keeps
    (hI : ∀ (r : NewsReader π α) (s : NNTPClientSession π) (a : Std.TreeMap UInt32 (Option α)), I r →
      I { r with m_session := s, m_articles := a }) : Keeps I (getArticles poco) := by
  have hsession : ∀ {γ : Type} (p : NNTPClientSession.Method π γ), Keeps I (inSession p) :=
    fun p => inSession_keeps (fun r s hr => hI r s r.m_articles hr) p
  have harticles : ∀ f : NewsReader π α → Std.TreeMap UInt32 (Option α),
      Keeps I (Prog.modify fun r => { r with m_articles := f r } : Method π α Unit) :=
    fun f => keeps_modify fun r hr => hI r r.m_session (f r) hr
  have hround : ∀ x, Keeps I (fetchRound poco x) := by
    intro x
    unfold fetchRound
    refine keeps_get.bind fun r => Keeps.ite ?_ (keeps_pure _)
    refine (hsession _).bind fun present => Keeps.ite ?_ (keeps_pure _)
    refine (harticles fun r => r.m_articles.insert x.1 (some poco.newArticle)).bind fun _ => ?_
    refine (hsession _).bind fun article => ?_
    exact (harticles fun r => r.m_articles.insert x.1 (some article)).bind fun _ => keeps_pure _
  rw [getArticles_eq]
  exact (harticles fun _ => ∅).bind fun _ => keeps_get.bind fun r => Keeps.loop hround _

theorem loadGroup_keeps
    (hI : ∀ (r : NewsReader π α) (s : NNTPClientSession π) (g : ActiveNewsGroup)
      (a : Std.TreeMap UInt32 (Option α)), I r →
      I { r with m_session := s, m_activeGroup := g, m_articles := a }) :
    Keeps I (loadGroup poco) := by
  unfold loadGroup
  refine keeps_get.bind fun r => ?_
  refine (inSession_keeps (fun r s hr => hI r s r.m_activeGroup r.m_articles hr) _).bind fun g => ?_
  refine (keeps_modify fun r hr => hI r r.m_session g r.m_articles hr).bind fun _ => ?_
  exact getArticles_keeps fun r s a hr => hI r s r.m_activeGroup a hr

end Frame

/-! ## What the calls return -/

section Calls

variable {r r₁ t : NewsReader π α} {x : Except Exception Bool}

theorem selectGroup_quits (h : (chooseGroup poco).Evals r (.ok none) r₁) :
    (selectGroup poco).Evals r (.ok false) r₁ := by
  unfold selectGroup
  exact h.bind (evals_return _ _)

theorem selectGroup_selects {group : Int} {desc : GroupDesc}
    (h : (chooseGroup poco).Evals r (.ok (some group)) r₁)
    (hdesc : r₁.m_groupDescs[(group - 1).toNat]? = some desc) :
    (selectGroup poco).Evals r x t ↔
      (loadGroup poco >>= fun _ => pure true).Evals { r₁ with m_currentGroup := desc.1 } x t := by
  unfold selectGroup loadGroup
  rw [h.bind_iff]
  simp only [bind_assoc]
  rw [evals_get_bind, hdesc]
  exact evals_modify_bind

theorem selectArticle_quits (h : (chooseArticle poco).Evals r (.ok none) r₁) :
    (selectArticle poco).Evals r (.ok false) r₁ := by
  unfold selectArticle
  exact h.bind (evals_return _ _)

theorem selectArticle_selects {number : UInt32}
    (h : (chooseArticle poco).Evals r (.ok (some number)) r₁) :
    (selectArticle poco).Evals r (.ok true) { r₁ with m_selectedArticle := number } := by
  unfold selectArticle
  apply h.bind
  exact evals_modify_bind.mpr (evals_return _ _)

end Calls

/-! ## The first deciding line -/

/-- `selectGroup` has decided by `line`: it has shown its menu for each of `lines`, with nothing changed
    and `rest` left to read, and returns false or goes on with the group named. -/
structure GroupDecided (poco : Poco π μ α) (r : NewsReader π α) (lines : List Bytes) (line : Bytes)
    (rest : List Bytes) : Prop where
  quits : line = text "q" →
    (selectGroup poco).Evals r (.ok false) (r.asked r.groupPage lines rest)
  selects : line ≠ text "q" → ∀ group desc, poco.parse line = .ok group → r.isGroup group = true →
    r.m_groupDescs[(group - 1).toNat]? = some desc → ∀ x t, (selectGroup poco).Evals r x t ↔
      (loadGroup poco >>= fun _ => pure true).Evals
        { r.asked r.groupPage lines rest with m_currentGroup := desc.1 } x t
  returns : line ≠ text "q" → ∀ group desc, poco.parse line = .ok group → r.isGroup group = true →
    r.m_groupDescs[(group - 1).toNat]? = some desc → ∀ t, (loadGroup poco).Evals
        { r.asked r.groupPage lines rest with m_currentGroup := desc.1 } (.ok ()) t →
      (selectGroup poco).Evals r (.ok true) t ∧ t.m_currentGroup = desc.1 ∧ t.cin = rest

/-- `selectArticle` has decided by `line`. -/
structure ArticleDecided (poco : Poco π μ α) (r : NewsReader π α) (menu : List Output)
    (lines : List Bytes) (line : Bytes) (rest : List Bytes) : Prop where
  page : r.articlePage poco = .ok menu
  quits : line = text "q" →
    (selectArticle poco).Evals r (.ok false) (r.asked menu lines rest)
  selects : line ≠ text "q" → ∀ number, poco.parseUnsigned line = .ok number →
    r.isArticle number = true →
    (selectArticle poco).Evals r (.ok true)
      { r.asked menu lines rest with m_selectedArticle := number }

section Decided

variable {r : NewsReader π α} {before : List Bytes} {line : Bytes} {rest : List Bytes}

/-- A number on the menu is the place of a group. -/
theorem isGroup_getElem? {group : Int} (h : r.isGroup group = true) :
    ∃ desc, r.m_groupDescs[(group - 1).toNat]? = some desc := by
  obtain ⟨hlow, hhigh⟩ := of_decide_eq_true h
  have hlt : (group - 1).toNat < r.m_groupDescs.length := by omega
  exact ⟨_, List.getElem?_eq_getElem hlt⟩

/-- Where every line before it is a number, the first deciding line of `selectGroup` decides. -/
theorem groupDecided_of_parses (hcin : r.cin = before ++ line :: rest) (hne : r.m_groupDescs ≠ [])
    (hbefore : ∀ l ∈ before, ¬ Decides poco.parse r.isGroup l)
    (hparses : ∀ l ∈ before, Parses poco.parse l) :
    GroupDecided poco r (before ++ [line]) line rest := by
  have hprompts : Prompts (groupPrompt poco ()) r.groupPage (judge poco.parse r.isGroup) r :=
    groupPrompt_prompts hne
  have hselects : line ≠ text "q" → ∀ group desc, poco.parse line = .ok group →
      r.isGroup group = true → r.m_groupDescs[(group - 1).toNat]? = some desc →
      ∀ x t, (selectGroup poco).Evals r x t ↔ (loadGroup poco >>= fun _ => pure true).Evals
        { r.asked r.groupPage (before ++ [line]) rest with m_currentGroup := desc.1 } x t := by
    intro hq group desc hgroup hvalid hdesc x t
    have hchoice : (chooseGroup poco).Evals r (.ok (some group))
        (r.asked r.groupPage (before ++ [line]) rest) :=
      hprompts.takes hcin hbefore hparses (judge_number hq hgroup hvalid)
    exact selectGroup_selects hchoice hdesc
  refine ⟨?_, hselects, ?_⟩
  · rintro rfl
    exact selectGroup_quits (hprompts.takes hcin hbefore hparses judge_q)
  · intro hq group desc hgroup hvalid hdesc t hload
    have hkeeps : Keeps (fun r : NewsReader π α => r.m_currentGroup = desc.1 ∧ r.cin = rest)
        (loadGroup poco) := loadGroup_keeps fun _ _ _ _ hr => hr
    exact ⟨(hselects hq group desc hgroup hvalid hdesc _ t).mpr (hload.bind (evals_return _ _)),
      hkeeps _ _ t ⟨rfl, rfl⟩ hload⟩

/-- The same for `selectArticle`, given that its menu can be printed. -/
theorem articleDecided_of_parses {menu : List Output} (hcin : r.cin = before ++ line :: rest)
    (hpage : r.articlePage poco = .ok menu)
    (hbefore : ∀ l ∈ before, ¬ Decides poco.parseUnsigned r.isArticle l)
    (hparses : ∀ l ∈ before, Parses poco.parseUnsigned l) :
    ArticleDecided poco r menu (before ++ [line]) line rest := by
  have hprompts := articlePrompt_prompts hpage
  refine ⟨hpage, ?_, ?_⟩
  · rintro rfl
    exact selectArticle_quits (hprompts.takes hcin hbefore hparses judge_q)
  · intro hq number hnumber hvalid
    exact selectArticle_selects (hprompts.takes hcin hbefore hparses (judge_number hq hnumber hvalid))

/-- The menu of `selectArticle` can be printed where there is an article and no null pointer. -/
theorem articlePage_ok_iff (hne : r.m_articles.isEmpty = false) :
    (∃ menu, r.articlePage poco = .ok menu) ↔ r.NoNull := by
  obtain ⟨pos, hpos⟩ := maxElement_articles hne
  rw [noNull_iff, articlePage, shelfPage, hpos]
  rcases articleMenu_cases poco ((Bytes.ofUInt pos.1).length + 1) r.m_articles.toList with
    ⟨lines, hlines, hnull⟩ | ⟨herr, x, hx, hnull⟩
  · exact iff_of_true ⟨lines, hlines⟩ hnull
  · refine iff_of_false ?_ fun h => h x hx hnull
    rintro ⟨menu, hmenu⟩
    exact absurd (herr.symm.trans hmenu) (by simp)

theorem groupDecided_iff (hcin : r.cin = before ++ line :: rest) (hne : r.m_groupDescs ≠ [])
    (hbefore : ∀ l ∈ before, ¬ Decides poco.parse r.isGroup l)
    (hline : Decides poco.parse r.isGroup line) :
    GroupDecided poco r (before ++ [line]) line rest ↔ ∀ l ∈ before, Parses poco.parse l := by
  constructor
  · intro hdecided
    by_contra hnumbers
    obtain ⟨e, lines, more, hchoice⟩ := (groupPrompt_prompts hne).throws hcin hbefore hnumbers
    have hthrows : (selectGroup poco).Evals r (.error e) _ := Evals.bind_error hchoice
    rcases Classical.em (line = text "q") with hq | hq
    · exact absurd (hthrows.unique (hdecided.quits hq)).1 (by simp)
    · obtain ⟨group, hgroup, hvalid⟩ := hline.resolve_left hq
      obtain ⟨desc, hdesc⟩ := isGroup_getElem? hvalid
      have hload := (hdecided.selects hq group desc hgroup hvalid hdesc _ _).mp hthrows
      -- what follows the choice reads no line, so it cannot be where the call threw
      have hkeeps : Keeps (fun r : NewsReader π α => r.cin = rest)
          (loadGroup poco >>= fun _ => pure true) :=
        (loadGroup_keeps fun _ _ _ _ hr => hr).bind fun _ => keeps_pure _
      have hrest : more ++ line :: rest = rest := hkeeps _ _ _ rfl hload
      have hlen := congrArg List.length hrest
      simp only [List.length_append, List.length_cons] at hlen
      omega
  · exact groupDecided_of_parses hcin hne hbefore

theorem articleDecided_iff (hcin : r.cin = before ++ line :: rest)
    (hne : r.m_articles.isEmpty = false)
    (hbefore : ∀ l ∈ before, ¬ Decides poco.parseUnsigned r.isArticle l)
    (hline : Decides poco.parseUnsigned r.isArticle line) :
    (∃ menu, ArticleDecided poco r menu (before ++ [line]) line rest) ↔
      r.NoNull ∧ ∀ l ∈ before, Parses poco.parseUnsigned l := by
  constructor
  · rintro ⟨menu, hdecided⟩
    refine ⟨(articlePage_ok_iff hne).mp ⟨menu, hdecided.page⟩, ?_⟩
    by_contra hnumbers
    obtain ⟨e, lines, more, hchoice⟩ :=
      (articlePrompt_prompts hdecided.page).throws hcin hbefore hnumbers
    have hthrows : (selectArticle poco).Evals r (.error e) _ := Evals.bind_error hchoice
    rcases Classical.em (line = text "q") with hq | hq
    · exact absurd (hthrows.unique (hdecided.quits hq)).1 (by simp)
    · obtain ⟨number, hnumber, hvalid⟩ := hline.resolve_left hq
      exact absurd (hthrows.unique (hdecided.selects hq number hnumber hvalid)).1 (by simp)
  · rintro ⟨hnull, hparses⟩
    have hprinted : ∃ menu, r.articlePage poco = .ok menu := (articlePage_ok_iff hne).mpr hnull
    obtain ⟨menu, hpage⟩ := hprinted
    exact ⟨menu, articleDecided_of_parses hcin hpage hbefore hparses⟩

/-- **The first deciding line decides** if and only if every line before it is a number, as the parser
    has it; for `selectArticle` there must be no null pointer among the articles either. -/
theorem first_deciding_line_iff (poco : Poco π μ α) (hcin : r.cin = before ++ line :: rest) :
    (r.m_groupDescs ≠ [] → (∀ l ∈ before, ¬ Decides poco.parse r.isGroup l) →
      Decides poco.parse r.isGroup line →
      (GroupDecided poco r (before ++ [line]) line rest ↔ ∀ l ∈ before, Parses poco.parse l)) ∧
    (r.m_articles.isEmpty = false → (∀ l ∈ before, ¬ Decides poco.parseUnsigned r.isArticle l) →
      Decides poco.parseUnsigned r.isArticle line →
      ((∃ menu, ArticleDecided poco r menu (before ++ [line]) line rest) ↔
        r.NoNull ∧ ∀ l ∈ before, Parses poco.parseUnsigned l)) :=
  ⟨groupDecided_iff hcin, articleDecided_iff hcin⟩

end Decided

/-- A number off both menus, and then one on both. -/
theorem first_deciding_line_iff_reference :
    let poco := Poco.reference (Server.accepting []) Reference.readAll id
    let r : NewsReader ℕ Bytes :=
      { (ofSocket openedSession.m_socket [text "7", text "2"] : NewsReader ℕ Bytes) with
      m_groupDescs := [(text "boost.test", []), (text "boost.user", text "Users")]
      m_articles := (∅ : Std.TreeMap UInt32 (Option Bytes)).insert 2 (some []) }
    (GroupDecided poco r [text "7", text "2"] (text "2") [] ↔
      ∀ l ∈ [text "7"], Parses poco.parse l) ∧
    ((∃ menu, ArticleDecided poco r menu [text "7", text "2"] (text "2") []) ↔
      r.NoNull ∧ ∀ l ∈ [text "7"], Parses poco.parseUnsigned l) := by
  intro poco r
  have hcin : r.cin = [text "7"] ++ text "2" :: [] := rfl
  obtain ⟨hgroup, harticle⟩ := first_deciding_line_iff poco hcin
  refine ⟨hgroup (by simp [r]) ?_ ?_, harticle (by simp [r]) ?_ ?_⟩
  · intro l hl
    rw [List.mem_singleton.mp hl]
    rintro (hq | ⟨n, hn, hvalid⟩)
    · exact absurd hq (by decide)
    · obtain rfl : 7 = n := Except.ok.inj hn
      exact absurd hvalid (by decide)
  · exact Or.inr ⟨2, rfl, rfl⟩
  · intro l hl
    rw [List.mem_singleton.mp hl]
    rintro (hq | ⟨n, hn, hvalid⟩)
    · exact absurd hq (by decide)
    · obtain rfl : 7 = n := Except.ok.inj hn
      exact absurd hvalid (by simp [isArticle, isOnShelf, r])
  · exact Or.inr ⟨2, rfl, by simp [isArticle, isOnShelf, r]⟩

/-- A slip of the finger at the menu of groups, before `q`: the program ends by the exception. -/
theorem typo_ends_program :
    let poco := Poco.reference (Server.accepting [text "boost.user  Users"]) Reference.readAll id
    let start : NewsReader ℕ Bytes := .ofSocket greetedSession.m_socket [text "x", text "q"]
    ∃ r, Reached poco start .selectGroup r ∧ r.cin = [text "x", text "q"] ∧ r.m_groupDescs ≠ [] ∧
      ¬ Decides poco.parse r.isGroup (text "x") ∧ Decides poco.parse r.isGroup (text "q") ∧
      (∃ t, (selectGroup poco).Evals r (.error (.notANumber (text "x"))) t) ∧
      ¬ GroupDecided poco r [text "x", text "q"] (text "q") [] ∧
      ∃ t, (main poco).Evals start (.ok 1) t := by
  intro poco start
  have hconstruct : ((construct poco).run 99 start).map (fun x => (x.1, x.2.m_groupDescs, x.2.cin)) =
      some (.ok (), [(text "boost.user", text "Users")], [text "x", text "q"]) := by
    decide +kernel
  have hmain : ((main poco).run 99 start).map (fun x => (x.1, ())) = some (.ok 1, ()) := by
    decide +kernel
  obtain ⟨r, hconstruct, hr⟩ := exists_evals_of_run 99
    (fun r : NewsReader ℕ Bytes => (r.m_groupDescs, r.cin)) hconstruct
  obtain ⟨t, hmain, _⟩ := exists_evals_of_run 99 (fun _ : NewsReader ℕ Bytes => ()) hmain
  obtain ⟨hdescs, hcin⟩ := Prod.mk.inj hr
  have hne : r.m_groupDescs ≠ [] := by simp [hdescs]
  have hcin' : r.cin = [] ++ text "x" :: [text "q"] := hcin
  have hthrows : (selectGroup poco).Evals r (.error (.notANumber (text "x"))) _ :=
    ((groupPrompt_prompts hne).evals (x := .error (.notANumber (text "x"))) hcin' (by simp)
      rfl).bind_error
  refine ⟨r, .constructed hconstruct, hcin, hne, ?_, Or.inl rfl, ⟨_, hthrows⟩, ?_, t, hmain⟩
  · rintro (hq | ⟨n, hn, _⟩)
    · exact absurd hq (by decide)
    · have herr : poco.parse (text "x") = .error (.notANumber (text "x")) := rfl
      exact absurd (herr.symm.trans hn) (by simp)
  · intro hdecided
    exact absurd (hthrows.unique (hdecided.quits rfl)).1 (by simp)

end NewsReader

end NntpPoco
