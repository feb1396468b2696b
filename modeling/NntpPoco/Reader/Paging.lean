import NntpPoco.Lib.Pieces
import NntpPoco.Reader.Run

/-!
# `Reader.Paging` — the loop of `displayArticle`

The loop moves a cursor over the content and counts the lines it prints. On the level of lines it is
`pager`: `showContent_evals` says that the loop prints what `pager` makes of the pieces of the content
between its CRLFs, and that it ends. What the user sees is then read off the pager: all pieces in their
order (`content_shown_once`), but not page by page, for there is only one prompt (`paging_iff`).
-/

namespace NntpPoco

open Lines Prog NNTPClientSession

variable {π μ α β : Type} {poco : Poco π μ α}

/-! ## The cursor -/

section Cursor

/-- Where the line that begins at `start` ends: `pos`. -/
def lineEnd (content : Bytes) (start : ℕ) : ℕ :=
  (content.find (text "\r\n") start).getD content.length

/-- Where the next line begins. -/
def nextLine (content : Bytes) (start : ℕ) : ℕ :=
  if lineEnd content start = content.length then content.length else lineEnd content start + 2

variable {content : Bytes} {start : ℕ}

/-- The cursor is inside the content or at its end, and does not leave it. -/
structure InContent (content : Bytes) (start : ℕ) : Prop where
  le : start ≤ content.length
  substr : start ≠ content.length →
    start < content.length ∧ start ≤ lineEnd content start ∧ lineEnd content start ≤ content.length
  next : start ≠ content.length →
    start < nextLine content start ∧ nextLine content start ≤ content.length

/-- The line at the cursor. -/
def lineAt (content : Bytes) (start : ℕ) : Bytes :=
  (content.drop start).take (lineEnd content start - start)

/-- **One line further.** Both kinds of line: up to a CRLF, and up to the end of the content. -/
theorem line_step (hlt : start < content.length) :
    (start ≤ lineEnd content start ∧ lineEnd content start ≤ content.length) ∧
    (start < nextLine content start ∧ nextLine content start ≤ content.length) ∧
    pieces (content.drop start) =
      lineAt content start :: pieces (content.drop (nextLine content start)) := by
  have hne : content.drop start ≠ [] := by
    rw [Ne, List.drop_eq_nil_iff]
    omega
  have hfind : content.find (text "\r\n") start =
      (Bytes.findSub crlf (content.drop start)).map (· + start) := if_pos (Nat.le_of_lt hlt)
  cases hsub : Bytes.findSub crlf (content.drop start) with
  | none =>
      have hend : lineEnd content start = content.length := by
        rw [lineEnd, hfind, hsub]
        rfl
      have hnext : nextLine content start = content.length := if_pos hend
      have hfree : CrlfFree (content.drop start) := Bytes.findSub_eq_none_iff.mp hsub
      refine ⟨by omega, by omega, ?_⟩
      rw [pieces_crlfFree hne hfree, lineAt, hend, hnext, List.drop_length, pieces_nil]
      rw [List.take_of_length_le (by simp)]
  | some k =>
      obtain ⟨l, rest, hdrop, rfl, hl⟩ := Bytes.exists_of_findSub (by simp [crlf]) hsub
      have hlength := congrArg List.length hdrop
      simp only [List.length_drop, List.length_append, crlf, List.length_cons, List.length_nil] at hlength
      have hend : lineEnd content start = l.length + start := by
        rw [lineEnd, hfind, hsub]
        rfl
      have hnext : nextLine content start = l.length + start + 2 := by
        rw [nextLine, if_neg (by omega), hend]
      refine ⟨by omega, by omega, ?_⟩
      have hrest : content.drop (nextLine content start) = rest := by
        have hdrop' : content.drop (nextLine content start) =
            (content.drop start).drop (l.length + 2) := by
          rw [List.drop_drop, hnext]
          congr 1
          omega
        rw [hdrop', hdrop, ← List.append_assoc, List.drop_left' (by simp [crlf])]
      rw [hrest, lineAt, hdrop, hend, pieces_crlf hl, Nat.add_sub_cancel, List.take_left]

theorem inContent_of_le (hle : start ≤ content.length) : InContent content start := by
  refine ⟨hle, fun hne => ?_, fun hne => ?_⟩
  · have hlt : start < content.length := by omega
    exact ⟨hlt, (line_step hlt).1⟩
  · have hlt : start < content.length := by omega
    exact (line_step hlt).2.1

end Cursor

namespace NewsReader

/-! ## The loop -/

/-- One round of the loop of `displayArticle`. -/
def contentRound (content : Bytes) (x : ℕ × ℕ) : Method π α ((ℕ × ℕ) ⊕ Unit) := do
  if x.1 ≠ content.length then
    let line ← Prog.ofExcept (content.substr x.1 (lineEnd content x.1 - x.1))
    print [.content line]
    if x.2 + 1 = 24 then
      print [.more]
      let line ← getline
      if line = text "q" then
        pure (.inr ())
      else
        pure (.inl (nextLine content x.1, x.2 + 1))
    else
      pure (.inl (nextLine content x.1, x.2 + 1))
  else
    pure (.inr ())

theorem showContent_eq (content : Bytes) :
    (showContent content : Method π α Unit) = loop (contentRound content) (0, 0) := rfl

/-- The loop of `displayArticle` on the lines still to be shown, once `count` have been: what it prints,
    and what it leaves of the input. -/
def pager : ℕ → List Bytes → List Bytes → List Output × List Bytes
  | _, [], cin => ([], cin)
  | count, line :: lines, cin =>
    if count + 1 = 24 then
      if cin.headD [] = text "q" then ([.content line, .more], cin.tail)
      else ((pager (count + 1) lines cin.tail).map (.content line :: .more :: ·) id)
    else (pager (count + 1) lines cin).map (.content line :: ·) id

/-- The reader once the pager has printed and read. -/
def shown (r : NewsReader π α) (x : List Output × List Bytes) : NewsReader π α :=
  { r with cin := x.2, cout := r.cout ++ x.1 }

theorem shown_shown (r : NewsReader π α) (out : List Output) (cin : List Bytes)
    (x : List Output × List Bytes) : (r.shown (out, cin)).shown x = r.shown (out ++ x.1, x.2) := by
  simp [shown]

section Round

variable {content : Bytes} {start count : ℕ} {r : NewsReader π α}

/-- At the end of the content the loop is left. -/
theorem contentRound_end :
    (contentRound content (content.length, count)).Evals r (.ok (.inr ())) r := by
  unfold contentRound
  rw [if_neg (not_not.mpr rfl)]
  exact evals_return _ _

/-- The line at the cursor is printed. -/
theorem contentRound_line (hlt : start < content.length) {x : Except Exception ((ℕ × ℕ) ⊕ Unit)}
    {t : NewsReader π α} :
    (contentRound content (start, count)).Evals r x t ↔
      (if count + 1 = 24 then do
          print [.more]
          let line ← getline
          if line = text "q" then
            pure (.inr ())
          else
            pure (.inl (nextLine content start, count + 1))
        else pure (.inl (nextLine content start, count + 1)) : Method π α ((ℕ × ℕ) ⊕ Unit)).Evals
        (r.shown ([.content (lineAt content start)], r.cin)) x t := by
  have hsubstr : content.substr start (lineEnd content start - start) = .ok (lineAt content start) :=
    if_pos (Nat.le_of_lt hlt)
  unfold contentRound
  rw [if_pos (Nat.ne_of_lt hlt), hsubstr]
  exact (evals_return _ _).bind_iff.trans evals_modify_bind

/-- No prompt. -/
theorem contentRound_next (hlt : start < content.length) (hcount : count + 1 ≠ 24) :
    (contentRound content (start, count)).Evals r (.ok (.inl (nextLine content start, count + 1)))
      (r.shown ([.content (lineAt content start)], r.cin)) := by
  rw [contentRound_line hlt, if_neg hcount]
  exact evals_return _ _

/-- The prompt, with the answer `q` or any other. -/
theorem contentRound_more (hlt : start < content.length) (hcount : count + 1 = 24) :
    (contentRound content (start, count)).Evals r
      (.ok (if r.cin.headD [] = text "q" then .inr () else .inl (nextLine content start, count + 1)))
      (r.shown ([.content (lineAt content start), .more], r.cin.tail)) := by
  rw [contentRound_line hlt, if_pos hcount]
  apply evals_modify_bind.mpr
  have hline : (getline : Method π α Bytes).Evals
      ((r.shown ([.content (lineAt content start)], r.cin)).shown ([.more], r.cin))
      (.ok (r.cin.headD [])) (r.shown ([.content (lineAt content start), .more], r.cin.tail)) := by
    rw [shown_shown]
    exact evals_lift.mpr rfl
  apply hline.bind
  by_cases hq : r.cin.headD [] = text "q"
  · rw [if_pos hq, if_pos hq]
    exact evals_return _ _
  · rw [if_neg hq, if_neg hq]
    exact evals_return _ _

/-- **The loop prints what the pager makes of the pieces ahead of the cursor, and ends.** -/
theorem contentLoop_evals (hle : start ≤ content.length) :
    (loop (contentRound content) (start, count)).Evals r (.ok ())
      (r.shown (pager count (pieces (content.drop start)) r.cin)) := by
  -- on what is ahead of the cursor
  induction hahead : content.length - start using Nat.strong_induction_on
      generalizing start count r with
  | _ ahead ih =>
      subst hahead
      rcases Nat.lt_or_eq_of_le hle with hlt | rfl
      · obtain ⟨_, ⟨hnext, hnext'⟩, hpieces⟩ := line_step hlt
        rw [hpieces, pager]
        by_cases hcount : count + 1 = 24
        · have hround := contentRound_more (r := r) hlt hcount
          rw [if_pos hcount]
          by_cases hq : r.cin.headD [] = text "q"
          · rw [if_pos hq] at hround
            rw [if_pos hq]
            exact hround.loop_exit
          · rw [if_neg hq] at hround
            rw [if_neg hq]
            apply hround.loop_again
            have hrest : (loop (contentRound content) (nextLine content start, count + 1)).Evals
                (r.shown ([.content (lineAt content start), .more], r.cin.tail)) (.ok ()) _ :=
              ih _ (by omega) hnext' rfl
            rw [shown_shown] at hrest
            exact hrest
        · rw [if_neg hcount]
          apply (contentRound_next hlt hcount).loop_again
          have hrest : (loop (contentRound content) (nextLine content start, count + 1)).Evals
              (r.shown ([.content (lineAt content start)], r.cin)) (.ok ()) _ :=
            ih _ (by omega) hnext' rfl
          rw [shown_shown] at hrest
          exact hrest
      · rw [List.drop_length, pieces_nil, pager]
        have hshown : r.shown ([], r.cin) = r := by simp [shown]
        rw [hshown]
        exact contentRound_end.loop_exit

theorem showContent_evals (content : Bytes) (r : NewsReader π α) :
    (showContent content).Evals r (.ok ()) (r.shown (pager 0 (pieces content) r.cin)) := by
  rw [showContent_eq]
  exact contentLoop_evals (Nat.zero_le _)

/-- A round that goes round again has moved the cursor by a line. -/
theorem contentRound_again (hle : start ≤ content.length) {x : ℕ × ℕ} {t : NewsReader π α}
    (h : (contentRound content (start, count)).Evals r (.ok (.inl x)) t) :
    start < content.length ∧ x = (nextLine content start, count + 1) := by
  rcases Nat.lt_or_eq_of_le hle with hlt | rfl
  · refine ⟨hlt, ?_⟩
    by_cases hcount : count + 1 = 24
    · have heq := (h.unique (contentRound_more hlt hcount)).1
      by_cases hq : r.cin.headD [] = text "q"
      · rw [if_pos hq] at heq
        exact absurd (Except.ok.inj heq) (by simp)
      · rw [if_neg hq] at heq
        exact Sum.inl.inj (Except.ok.inj heq)
    · exact Sum.inl.inj (Except.ok.inj (h.unique (contentRound_next hlt hcount)).1)
  · exact absurd (h.unique contentRound_end).1 (by simp)

/-- **At every round** the cursor is inside the content, and no more lines have been counted than letters
    passed. -/
theorem contentRounds {x : ℕ × ℕ} {r' : NewsReader π α}
    (h : Rounds (contentRound content) (0, 0) r x r') : InContent content x.1 ∧ x.2 ≤ x.1 := by
  have hinv : x.1 ≤ content.length ∧ x.2 ≤ x.1 := by
    refine h.invariant (fun x _ => x.1 ≤ content.length ∧ x.2 ≤ x.1) ?_ ⟨Nat.zero_le _, le_rfl⟩
    rintro ⟨start, count⟩ s x' s' ⟨hle, hcount⟩ hround
    obtain ⟨hlt, rfl⟩ := contentRound_again hle hround
    obtain ⟨_, ⟨hnext, hnext'⟩, _⟩ := line_step hlt
    exact ⟨hnext', Nat.succ_le_of_lt (Nat.lt_of_le_of_lt hcount hnext)⟩
  exact ⟨inContent_of_le hinv.1, hinv.2⟩

end Round

/-! ## What the pager prints -/

/-- The lines of the content among what is printed. -/
def contents (out : List Output) : List Bytes :=
  out.filterMap fun item => match item with
    | .content line => some line
    | _ => none

@[simp] theorem contents_append (out out' : List Output) :
    contents (out ++ out') = contents out ++ contents out' := List.filterMap_append

@[simp] theorem contents_map (lines : List Bytes) : contents (lines.map .content) = lines := by
  rw [contents, List.filterMap_map]
  exact List.filterMap_some

theorem more_not_mem_map (lines : List Bytes) : Output.more ∉ lines.map .content := by
  simp

section Pager

variable {count : ℕ} {lines cin : List Bytes}

/-- Behind the prompt the count is never 24 again. -/
theorem pager_of_le (hcount : 24 ≤ count) : pager count lines cin = (lines.map .content, cin) := by
  induction lines generalizing count with
  | nil => rfl
  | cons line lines ih =>
      rw [pager, if_neg (by omega), ih (by omega)]
      rfl

/-- **In front of the prompt**, with `n` lines to go: there are fewer, -/
theorem pager_short {n : ℕ} (hcount : count + n = 24) (hshort : lines.length < n) :
    pager count lines cin = (lines.map .content, cin) := by
  induction lines generalizing count n with
  | nil => rfl
  | cons line lines ih =>
      rw [List.length_cons] at hshort
      rw [pager, if_neg (by omega), ih (n := n - 1) (by omega) (by omega)]
      rfl

/-- or the prompt comes, and behind it all the rest. -/
theorem pager_long {n : ℕ} (hcount : count + (n + 1) = 24) (hlong : n + 1 ≤ lines.length) :
    pager count lines cin = ((lines.take (n + 1)).map .content ++ .more ::
      (if cin.headD [] = text "q" then [] else (lines.drop (n + 1)).map .content), cin.tail) := by
  induction lines generalizing count n with
  | nil => exact absurd hlong (by simp)
  | cons line lines ih =>
      rw [List.length_cons] at hlong
      rw [pager]
      cases n with
      | zero =>
          rw [if_pos (by omega), pager_of_le (by omega)]
          by_cases hq : cin.headD [] = text "q"
          · rw [if_pos hq, if_pos hq]
            rfl
          · rw [if_neg hq, if_neg hq]
            rfl
      | succ n =>
          rw [if_neg (by omega), ih (n := n) (by omega) (by omega)]
          rfl

/-- **Everything the loop can print**: all lines without a prompt, or 24, the prompt, and all the rest or
    nothing. -/
theorem pager_cases (lines cin : List Bytes) :
    (lines.length < 24 ∧ pager 0 lines cin = (lines.map .content, cin)) ∨
    (24 ≤ lines.length ∧ pager 0 lines cin = ((lines.take 24).map .content ++ .more ::
      (if cin.headD [] = text "q" then [] else (lines.drop 24).map .content), cin.tail)) := by
  rcases Nat.lt_or_ge lines.length 24 with hshort | hlong
  · exact Or.inl ⟨hshort, pager_short rfl hshort⟩
  · exact Or.inr ⟨hlong, pager_long rfl hlong⟩

/-- **The lines printed** are all of them, unless the user leaves at the prompt. -/
theorem contents_pager (lines cin : List Bytes) :
    contents (pager 0 lines cin).1 =
      if 24 ≤ lines.length ∧ cin.headD [] = text "q" then lines.take 24 else lines := by
  rcases pager_cases lines cin with ⟨hshort, hpager⟩ | ⟨hlong, hpager⟩
  · rw [hpager, if_neg (by omega), contents_map]
  · rw [hpager, contents_append, contents_map]
    by_cases hq : cin.headD [] = text "q"
    · rw [if_pos hq, if_pos ⟨hlong, hq⟩]
      exact List.append_nil _
    · rw [if_neg hq, if_neg fun h => hq h.2]
      show lines.take 24 ++ contents ((lines.drop 24).map .content) = lines
      rw [contents_map, List.take_append_drop]

theorem contents_pager_isPrefix (lines cin : List Bytes) : contents (pager 0 lines cin).1 <+: lines := by
  rw [contents_pager]
  split
  · exact List.take_prefix 24 lines
  · exact List.prefix_refl lines

/-- A user who leaves has been asked. -/
theorem contents_pager_of_replies {lines cin : List Bytes}
    (hreplies : ∀ k < (pager 0 lines cin).1.count .more, cin.getD k [] ≠ text "q") :
    contents (pager 0 lines cin).1 = lines := by
  rw [contents_pager, if_neg]
  rintro ⟨hlong, hq⟩
  have hmore : .more ∈ (pager 0 lines cin).1 := by
    rcases pager_cases lines cin with ⟨hshort, _⟩ | ⟨_, hpager⟩
    · omega
    · rw [hpager]
      exact List.mem_append_right _ List.mem_cons_self
  rw [List.headD_eq_getD] at hq
  exact hreplies 0 (List.count_pos_iff.mpr hmore) hq

/-! ## The whole content, once -/

/-- **The loop of `displayArticle`** ends and prints pieces of the content from the first on, all of them
    for a user who answers no prompt by `q`. Its cursor stays inside the content, and it has counted no
    more lines than the cursor has passed letters. The pieces have no CRLF, and joined by CRLF they are
    the content without the CRLF it ends in. -/
theorem content_shown_once (content : Bytes) (r : NewsReader π α) :
    (∃ out t, (showContent content).Evals r (.ok ()) t ∧ t.cout = r.cout ++ out ∧
      contents out <+: pieces content ∧
      ((∀ k < out.count .more, r.cin.getD k [] ≠ text "q") → contents out = pieces content)) ∧
    (∀ x r', Rounds (contentRound content) (0, 0) r x r' → InContent content x.1 ∧ x.2 ≤ x.1) ∧
    (∀ p ∈ pieces content, CrlfFree p) ∧
    (¬ crlf <:+ content → List.intercalate crlf (pieces content) = content) ∧
    (crlf <:+ content → List.intercalate crlf (pieces content) ++ crlf = content) := by
  refine ⟨⟨_, _, showContent_evals content r, rfl, ?_, ?_⟩, ?_, ?_, ?_, ?_⟩
  · exact contents_pager_isPrefix (pieces content) r.cin
  · exact contents_pager_of_replies
  · intro x r' hrounds
    exact contentRounds hrounds
  · intro p hp
    exact crlfFree_of_mem_pieces hp
  · exact intercalate_pieces
  · exact intercalate_pieces_append

/-! ## Pages -/

/-- What is printed comes page by page: at most 24 lines of the content up to each prompt and behind the
    last one, and none behind a prompt that was answered by `q`. -/
structure Pages (replies : List Bytes) (out : List Output) : Prop where
  lines : ∀ page ∈ out.splitOn .more, (contents page).length ≤ 24
  quits : ∀ before after, out = before ++ .more :: after →
    replies.getD (before.count .more) [] = text "q" → contents after = []

section Pages

variable {replies : List Bytes} {first second : List Output}

/-- Without a prompt there is one page. -/
theorem pages_single_iff (hfirst : .more ∉ first) :
    Pages replies first ↔ (contents first).length ≤ 24 := by
  constructor
  · intro h
    exact h.lines first (by rw [List.splitOn_eq_singleton hfirst]; simp)
  · intro hlength
    refine ⟨?_, ?_⟩
    · rw [List.splitOn_eq_singleton hfirst]
      simpa using hlength
    · rintro before after rfl
      exact absurd (by simp) hfirst

/-- With one prompt there are two. -/
theorem pages_pair_iff (hfirst : .more ∉ first) (hsecond : .more ∉ second) :
    Pages replies (first ++ .more :: second) ↔ (contents first).length ≤ 24 ∧
      (contents second).length ≤ 24 ∧ (replies.headD [] = text "q" → contents second = []) := by
  have hsplit : (first ++ .more :: second).splitOn .more = [first, second] := by
    rw [List.splitOn_append_cons_self_of_not_mem hfirst, List.splitOn_eq_singleton hsecond]
  constructor
  · intro h
    refine ⟨h.lines first (by simp [hsplit]), h.lines second (by simp [hsplit]), fun hq => ?_⟩
    refine h.quits first second rfl ?_
    rwa [List.count_eq_zero_of_not_mem hfirst, ← List.headD_eq_getD]
  · rintro ⟨hlength, hlength', hquits⟩
    refine ⟨?_, ?_⟩
    · rw [hsplit]
      simpa using ⟨hlength, hlength'⟩
    · intro before after heq hq
      obtain ⟨rfl, _, rfl⟩ := (List.append_cons_inj_of_notMem hfirst hsecond).mp heq
      rw [List.count_eq_zero_of_not_mem hfirst, ← List.headD_eq_getD] at hq
      exact hquits hq

/-- **When the pager pages**: behind a header, up to 48 lines, or for a user who leaves at the prompt. -/
theorem pages_pager_iff {header : List Output} (hmore : .more ∉ header) (hheader : contents header = [])
    (lines cin : List Bytes) : Pages cin (header ++ (pager 0 lines cin).1) ↔
      lines.length ≤ 48 ∨ cin.headD [] = text "q" := by
  have hfirst : ∀ ls : List Bytes, .more ∉ header ++ ls.map .content := by
    intro ls hmem
    rcases List.mem_append.mp hmem with hmem | hmem
    · exact hmore hmem
    · exact more_not_mem_map ls hmem
  rcases pager_cases lines cin with ⟨hshort, hpager⟩ | ⟨hlong, hpager⟩
  · rw [hpager, pages_single_iff (hfirst lines), contents_append, hheader, contents_map]
    exact iff_of_true (by simp; omega) (Or.inl (by omega))
  · have htake : (lines.take 24).length ≤ 24 := List.length_take_le 24 lines
    rw [hpager, ← List.append_assoc]
    by_cases hq : cin.headD [] = text "q"
    · rw [if_pos hq, pages_pair_iff (hfirst _) List.not_mem_nil, contents_append, hheader, contents_map]
      exact iff_of_true ⟨htake, Nat.zero_le _, fun _ => rfl⟩ (Or.inr hq)
    · rw [if_neg hq, pages_pair_iff (hfirst _) (more_not_mem_map _), contents_append, hheader,
        contents_map, contents_map, List.length_drop]
      constructor
      · rintro ⟨_, hsecond, _⟩
        exact Or.inl (by omega)
      · rintro (hlength | hq')
        · exact ⟨htake, by omega, fun hq' => absurd hq' hq⟩
        · exact absurd hq' hq

end Pages

end Pager

/-! ## `displayArticle` -/

/-- What `displayArticle` prints in front of the content. -/
def articleHeader (poco : Poco π μ α) (article : α) (date : Bytes) : List Output :=
  [.header (text "        From: " ++ poco.getSender article),
    .header (text "     Subject: " ++ poco.getSubject article),
    .header (text "        Date: " ++ date),
    .header (text "Content-Type: " ++ poco.getContentType article),
    .header []]

/-- What is out by the time there turns out to be no date. -/
def unfinishedHeader (poco : Poco π μ α) (article : α) : List Output :=
  [.header (text "        From: " ++ poco.getSender article),
    .header (text "     Subject: " ++ poco.getSubject article),
    .header (text "        Date: ")]

section Display

variable {r : NewsReader π α} {article : α}

/-- The call begins with the two lines in front of the date, and goes on as `k` does. -/
theorem displayArticle_begins (harticle : r.m_articles[r.m_selectedArticle]? = some (some article))
    {x : Except Exception Unit} {t : NewsReader π α} :
    (displayArticle poco).Evals r x t ↔
      (match poco.formatDate article "%w %B %e, %Y" with
        | .error e => print [.header (text "        Date: ")] >>= fun _ => Prog.throw e
        | .ok date => print ((articleHeader poco article date).drop 2) >>= fun _ =>
          showContent (poco.getContent article) : Method π α Unit).Evals
        (r.shown ((unfinishedHeader poco article).take 2, r.cin)) x t := by
  unfold displayArticle
  rw [evals_get_bind, harticle]
  exact evals_modify_bind

/-- Without a date the call ends by the exception, in the middle of the header. -/
theorem displayArticle_throws (harticle : r.m_articles[r.m_selectedArticle]? = some (some article))
    {e : Exception} (hdate : poco.formatDate article "%w %B %e, %Y" = .error e) :
    (displayArticle poco).Evals r (.error e) (r.shown (unfinishedHeader poco article, r.cin)) := by
  rw [displayArticle_begins harticle, hdate]
  apply evals_modify_bind.mpr
  refine evals_throw.mpr ⟨rfl, ?_⟩
  simp [shown, unfinishedHeader]

/-- With one the header is printed, and then what the pager makes of the content. -/
theorem displayArticle_evals (harticle : r.m_articles[r.m_selectedArticle]? = some (some article))
    {date : Bytes} (hdate : poco.formatDate article "%w %B %e, %Y" = .ok date) :
    (displayArticle poco).Evals r (.ok ())
      (r.shown (articleHeader poco article date ++ (pager 0 (pieces (poco.getContent article)) r.cin).1,
        (pager 0 (pieces (poco.getContent article)) r.cin).2)) := by
  have hloop := showContent_evals (poco.getContent article)
    (r.shown (articleHeader poco article date, r.cin))
  rw [shown_shown] at hloop
  rw [displayArticle_begins harticle, hdate]
  apply evals_modify_bind.mpr
  have hheader : { r.shown ((unfinishedHeader poco article).take 2, r.cin) with
      cout := (r.shown ((unfinishedHeader poco article).take 2, r.cin)).cout ++
        (articleHeader poco article date).drop 2 } =
      r.shown (articleHeader poco article date, r.cin) := by
    simp [shown, unfinishedHeader, articleHeader]
  rw [hheader]
  exact hloop

/-- **The article on the screen**: behind its header `displayArticle` prints pieces of its content from the
    first on, all of them for a user who answers no prompt by `q`. It is the loop of `contentRound` that
    prints them. -/
theorem displayArticle_shows_content
    (harticle : r.m_articles[r.m_selectedArticle]? = some (some article)) {date : Bytes}
    (hdate : poco.formatDate article "%w %B %e, %Y" = .ok date) :
    (∃ out t, (displayArticle poco).Evals r (.ok ()) t ∧
      t.cout = r.cout ++ (articleHeader poco article date ++ out) ∧
      contents out <+: pieces (poco.getContent article) ∧
      ((∀ k < out.count .more, r.cin.getD k [] ≠ text "q") →
        contents out = pieces (poco.getContent article))) ∧
    (showContent (poco.getContent article) : Method π α Unit) =
      loop (contentRound (poco.getContent article)) (0, 0) :=
  ⟨⟨_, _, displayArticle_evals harticle hdate, rfl, contents_pager_isPrefix _ r.cin,
    contents_pager_of_replies⟩, showContent_eq _⟩

/-- **Paging.** `displayArticle` shows the content page by page if and only if there are at most two
    pages of it, or the user leaves at the first prompt; or no line of it is shown for want of a date. -/
theorem paging_iff (poco : Poco π μ α)
    (harticle : r.m_articles[r.m_selectedArticle]? = some (some article)) :
    (∃ x t out, (displayArticle poco).Evals r x t ∧ t.cout = r.cout ++ out ∧ Pages r.cin out) ↔
      (∃ e, poco.formatDate article "%w %B %e, %Y" = .error e) ∨
      (pieces (poco.getContent article)).length ≤ 48 ∨ r.cin.headD [] = text "q" := by
  cases hdate : poco.formatDate article "%w %B %e, %Y" with
  | error e =>
      have hpages : Pages r.cin (unfinishedHeader poco article) :=
        (pages_single_iff (by simp [unfinishedHeader])).mpr (Nat.zero_le _)
      exact iff_of_true ⟨_, _, _, displayArticle_throws harticle hdate, rfl, hpages⟩ (Or.inl ⟨e, rfl⟩)
  | ok date =>
      have hmore : .more ∉ articleHeader poco article date := by simp [articleHeader]
      have hpages := pages_pager_iff hmore rfl (pieces (poco.getContent article)) r.cin
      have heval := displayArticle_evals harticle hdate
      constructor
      · rintro ⟨x, t, out, hshown, hout, h⟩
        obtain ⟨_, rfl⟩ := heval.unique hshown
        rw [← List.append_cancel_left hout] at h
        exact Or.inr (hpages.mp h)
      · rintro (⟨e, herr⟩ | hcond)
        · exact absurd herr (by simp)
        · exact ⟨_, _, _, heval, rfl, hpages.mpr hcond⟩

end Display

/-- An article of 50 lines, left at the prompt. -/
theorem paging_iff_reference :
    let article := List.intercalate crlf (List.replicate 50 (text "x"))
    let poco := Poco.reference (Server.accepting []) Reference.readAll (id : Bytes → Bytes)
    let r : NewsReader ℕ Bytes := { (ofSocket openedSession.m_socket [text "q"] : NewsReader ℕ Bytes) with
      m_articles := (∅ : Std.TreeMap UInt32 (Option Bytes)).insert 1 (some article)
      m_selectedArticle := 1 }
    (∃ x t out, (displayArticle poco).Evals r x t ∧ t.cout = r.cout ++ out ∧ Pages r.cin out) ↔
      (∃ e, poco.formatDate article "%w %B %e, %Y" = .error e) ∨
      (pieces (poco.getContent article)).length ≤ 48 ∨ r.cin.headD [] = text "q" := by
  intro article poco r
  exact paging_iff poco (r := r) (by simp [r])

/-- An article of 49 lines, read to its end: 25 of them come behind the only prompt. -/
theorem second_page_unbounded :
    let poco := Poco.reference (Server.accepting (List.replicate 49 (text "x"))) Reference.readAll
      (id : Bytes → Bytes)
    let start : NewsReader ℕ Bytes := .ofSocket greetedSession.m_socket [text "1", text "1", [], text "q"]
    ∃ r, Reached poco start .displayArticle r ∧
      (∃ t out, (displayArticle poco).Evals r (.ok ()) t ∧ t.cout = r.cout ++ out ∧
        (out.splitOn .more).map (fun page => (contents page).length) = [24, 25]) ∧
      ¬ ∃ x t out, (displayArticle poco).Evals r x t ∧ t.cout = r.cout ++ out ∧ Pages r.cin out := by
  intro poco start
  let content := List.intercalate crlf (List.replicate 49 (text "x"))
  have hrun : ((openArticle poco).run 999 start).map
      (fun x => (x.1, x.2.cin, x.2.m_articles[x.2.m_selectedArticle]?)) =
        some (.ok true, [[], text "q"], some (some content)) := by
    decide +kernel
  obtain ⟨r, hopen, hr⟩ := exists_evals_of_run 999
    (fun r : NewsReader ℕ Bytes => (r.cin, r.m_articles[r.m_selectedArticle]?)) hrun
  obtain ⟨hcin, harticle⟩ := Prod.mk.inj hr
  have hdate : poco.formatDate content "%w %B %e, %Y" = .ok content := rfl
  have heval := displayArticle_evals harticle hdate
  have hpages : ¬ Pages r.cin (articleHeader poco content content ++
      (pager 0 (pieces content) r.cin).1) := by
    rw [pages_pager_iff (by simp [articleHeader]) rfl, hcin]
    decide +kernel
  refine ⟨r, reached_of_openArticle hopen, ⟨_, _, heval, rfl, ?_⟩, ?_⟩
  · rw [hcin]
    decide +kernel
  · rintro ⟨x, t, out, hshown, hout, h⟩
    obtain ⟨_, rfl⟩ := heval.unique hshown
    rw [← List.append_cancel_left hout] at h
    exact hpages h

end NewsReader

end NntpPoco
