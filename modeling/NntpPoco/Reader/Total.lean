import NntpPoco.Lib.Contract
import NntpPoco.Reader.Paging
import NntpPoco.Reader.Prompt
import NntpPoco.Reader.Protocol
import NntpPoco.Session.Dialogue
import NntpPoco.Session.Listing

/-!
# `Reader.Total` — the reader ends

There are five loops in `main.cpp`. Each prompt takes a line of the console, and a number read from the
empty line that `getline` gives at its end is an exception, so four of them are bounded by the lines of
the console (`prompt_total`, `choose_total`). The fifth, of `getArticles`, is bounded by the numbers of
the group, unless the last of them is the last number of all. `main_halts` puts the five together: with
a server that answers, `main` ends on every console, if only by an undefined behaviour.
-/

namespace NntpPoco

open Lines Prog NNTPClientSession

variable {π μ α β : Type} {poco : Poco π μ α} {server : Server π}

/-! ## What an exchange can come to -/

/-- A listing that is returned has one group for each line of its block. -/
theorem Speaks.groups {d d' : Dialogue π} {wildMat : Bytes} {descs : List GroupDesc}
    (h : Speaks poco server d (.listNewsGroups wildMat, .ok (.groups descs)) d') :
    ∃ l ls, (∀ x ∈ ls, BreakFree x) ∧ descs = (ls.map stuff).map descOf ∧
      server.react d.1 (Operation.listNewsGroups wildMat).line =
        (d'.1, (Response.block l ls).encode, false) := by
  obtain ⟨r, message, content, hr, hreact, _, _, hmeaning, _⟩ := h.inv
  cases hr with
  | single _ hop => exact absurd hop (by simp [Operation.hasBlock])
  | refused _ _ hstatus =>
      rw [Operation.meaning_refused _ _ hstatus] at hmeaning
      exact absurd hmeaning (by simp [Operation.refusal])
  | @accepted l ls _ _ hstatus hls =>
      rw [Operation.meaning_accepted _ _ hstatus] at hmeaning
      refine ⟨l, ls, hls, ?_, hreact⟩
      have hdescs : (.ok (.groups descs) : Except Exception (Result α)) =
          ((ls.map stuff).mapM groupDesc).map .groups := hmeaning
      rw [mapM_groupDesc] at hdescs
      split at hdescs
      · exact Result.groups.inj (Except.ok.inj hdescs)
      · exact absurd hdescs (by simp [Except.map])

/-- Their names have no line end in them. -/
theorem Speaks.groups_clean {d d' : Dialogue π} {wildMat : Bytes} {descs : List GroupDesc}
    (h : Speaks poco server d (.listNewsGroups wildMat, .ok (.groups descs)) d') :
    ∀ desc ∈ descs, BreakFree desc.1 := by
  obtain ⟨l, ls, hls, rfl, _⟩ := h.groups
  intro desc hdesc
  obtain ⟨line, hline, rfl⟩ := List.mem_map.mp hdesc
  obtain ⟨x, hx, rfl⟩ := List.mem_map.mp hline
  exact (hls x hx).stuff.of_isPrefix (List.takeWhile_prefix _)

/-- A group that is returned is what its reply describes. -/
theorem Speaks.active {d d' : Dialogue π} {newsgroup : Bytes} {g : ActiveNewsGroup}
    (h : Speaks poco server d (.selectNewsGroup newsgroup, .ok (.active g)) d') :
    ∃ l message, (4 ≤ l.length → message = l) ∧ isPositiveCompletion (statusOf l) = true ∧
      groupReply poco newsgroup message = .ok g ∧
      server.react d.1 (Operation.selectNewsGroup newsgroup).line = (d'.1, l ++ crlf, false) := by
  obtain ⟨r, message, content, hr, hreact, hmessage, _, hmeaning, _⟩ := h.inv
  cases hr with
  | refused _ hop _ => exact absurd hop (by simp [Operation.hasBlock])
  | accepted _ hop _ _ => exact absurd hop (by simp [Operation.hasBlock])
  | @single l _ _ =>
      cases hstatus : isPositiveCompletion (statusOf l) with
      | false =>
          rw [Operation.meaning_refused (.selectNewsGroup newsgroup) (.line l) hstatus] at hmeaning
          exact absurd hmeaning (by simp [Operation.refusal])
      | true =>
          rw [Operation.meaning_accepted (.selectNewsGroup newsgroup) (.line l) hstatus] at hmeaning
          refine ⟨l, message, hmessage, hstatus, ?_, ?_⟩
          · cases hreply : groupReply poco newsgroup message with
            | error e => exact absurd hmeaning (by simp [Operation.reading, hreply, Except.map])
            | ok g' =>
                have hactive : (.ok (.active g) : Except Exception (Result α)) = .ok (.active g') := by
                  rw [hmeaning, Operation.reading, hreply]
                  rfl
                rw [Result.active.inj (Except.ok.inj hactive)]
          · rw [hreact, Response.encode, Response.body, List.append_nil]
            rfl

namespace NewsReader

/-! ## Prompts -/

section Console

variable {I : NewsReader π α → Prop}

/-- **A prompt takes a line of the console**, or its number cannot be read. -/
theorem prompt_total
    (hI : ∀ (r : NewsReader π α) (cin : List Bytes) (cout : List Output), I r →
      I { r with cin := cin, cout := cout })
    {number : Bytes → Except Exception β} (hempty : ∃ e, number [] = .error e) (menu : List Output)
    {k : β → Method π α (Unit ⊕ Option β)} (hk : ∀ b r, ∃ y, (k b).Evals r (.ok y) r) (n : ℕ) :
    Total (fun r => I r ∧ r.cin.length = n)
      (print menu >>= fun _ => getline >>= fun cmd => if cmd = text "q" then pure (.inr none)
        else Prog.ofExcept (number cmd) >>= k)
      (fun _ r => I r ∧ r.cin.length < n) fun _ _ => True := by
  have hprint : Total (fun r => I r ∧ r.cin.length = n) (print menu)
      (fun _ r => I r ∧ r.cin.length = n) fun _ _ => True :=
    total_modify fun r hr => ⟨hI r r.cin _ hr.1, hr.2⟩
  -- a line of the console, or the empty line behind it
  have hgetline : Total (fun r => I r ∧ r.cin.length = n) getline
      (fun cmd r => I r ∧ (cmd = [] ∨ r.cin.length < n)) fun _ _ => True := by
    apply total_lift
    intro r hr
    refine ⟨hI r r.cin.tail r.cout hr.1, ?_⟩
    cases hcin : r.cin with
    | nil => exact Or.inl rfl
    | cons line rest =>
        rw [← hr.2, hcin]
        exact Or.inr (Nat.lt_succ_self _)
  apply hprint.bind
  intro _
  apply hgetline.bind
  intro cmd
  apply Total.ite
  · intro hquit
    refine total_pure fun r hr => ⟨hr.1, hr.2.resolve_left ?_⟩
    rw [hquit]
    decide
  · intro _
    have hnumber : Total (fun r => I r ∧ (cmd = [] ∨ r.cin.length < n))
        (Prog.ofExcept (number cmd) : Method π α β)
        (fun _ r => I r ∧ r.cin.length < n) fun _ _ => True := by
      apply total_ofExcept
      intro r hr
      cases hn : number cmd with
      | error e => trivial
      | ok b =>
          refine ⟨hr.1, hr.2.resolve_left ?_⟩
          rintro rfl
          obtain ⟨e, he⟩ := hempty
          exact absurd (hn.symm.trans he) (by simp)
    apply hnumber.bind
    intro b r hr
    obtain ⟨y, hy⟩ := hk b r
    exact ⟨.ok y, r, hy, hr⟩

/-- **The loop of a menu** ends, since each round takes a line. -/
theorem choose_total {round : Unit → Method π α (Unit ⊕ β)}
    (hround : ∀ n, Total (fun r => I r ∧ r.cin.length = n) (round ())
      (fun _ r => I r ∧ r.cin.length < n) fun _ _ => True) (n : ℕ) :
    Total (fun r => I r ∧ r.cin.length = n) (loop round ())
      (fun _ r => I r ∧ r.cin.length < n) fun _ _ => True := by
  have hloop : Total (fun r => I r ∧ r.cin.length ≤ n) (loop round ())
      (fun _ r => I r ∧ r.cin.length < n) fun _ _ => True := by
    apply Total.loop (fun _ r => I r ∧ r.cin.length ≤ n) fun _ r => r.cin.length
    intro _ m r hr
    obtain ⟨⟨hinv, hle⟩, hlength⟩ := hr
    obtain ⟨x, t, heval, hexit⟩ := hround m r ⟨hinv, hlength⟩
    refine ⟨x, t, heval, ?_⟩
    rcases x with e | again | choice
    · trivial
    · obtain ⟨ht, hlt⟩ := hexit
      exact ⟨⟨ht, by omega⟩, hlt⟩
    · obtain ⟨ht, hlt⟩ := hexit
      exact ⟨ht, by omega⟩
  exact hloop.imp (fun r hr => ⟨hr.1, hr.2.le⟩) (fun _ _ h => h) fun _ _ h => h

theorem chooseGroup_total
    (hI : ∀ (r : NewsReader π α) (cin : List Bytes) (cout : List Output), I r →
      I { r with cin := cin, cout := cout }) (hempty : ∃ e, poco.parse [] = .error e) (n : ℕ) :
    Total (fun r => I r ∧ r.cin.length = n) (chooseGroup poco)
      (fun _ r => I r ∧ r.cin.length < n) fun _ _ => True := by
  rw [chooseGroup_eq]
  apply choose_total
  intro n r hr
  unfold groupPrompt
  simp only [evals_get_bind]
  cases maxElement (fun desc : GroupDesc => desc.1.length) r.m_groupDescs with
  | none => exact ⟨_, r, evals_throw.mpr ⟨rfl, rfl⟩, trivial⟩
  | some pos =>
      refine prompt_total hI hempty _ (fun group r' => ?_) n r hr
      by_cases hgroup : group < 1 ∨ group > r.m_groupDescs.length
      · rw [if_pos hgroup]
        exact ⟨_, evals_return _ _⟩
      · rw [if_neg hgroup]
        exact ⟨_, evals_return _ _⟩

theorem chooseArticle_total
    (hI : ∀ (r : NewsReader π α) (cin : List Bytes) (cout : List Output), I r →
      I { r with cin := cin, cout := cout }) (hempty : ∃ e, poco.parseUnsigned [] = .error e) (n : ℕ) :
    Total (fun r => I r ∧ r.cin.length = n) (chooseArticle poco)
      (fun _ r => I r ∧ r.cin.length < n) fun _ _ => True := by
  rw [chooseArticle_eq]
  apply choose_total
  intro n r hr
  unfold articlePrompt
  simp only [evals_get_bind]
  cases maxElement (fun x : UInt32 × Option α => (Bytes.ofUInt x.1).length) r.m_articles.toList with
  | none => exact ⟨_, r, evals_throw.mpr ⟨rfl, rfl⟩, trivial⟩
  | some pos =>
      cases hmenu : articleMenu poco ((Bytes.ofUInt pos.1).length + 1) r.m_articles.toList with
      | error e =>
          refine ⟨.error e, r, ?_, trivial⟩
          simp only [hmenu]
          exact Evals.bind_error (evals_ofExcept.mpr ⟨rfl, rfl⟩)
      | ok lines =>
          obtain ⟨x, t, heval, hexit⟩ := prompt_total hI hempty lines (k := fun number =>
            if number ∈ r.m_articles then pure (.inr (some number)) else pure (.inl ()))
            (fun number r' => by by_cases h : number ∈ r.m_articles <;> simp [h]) n r hr
          refine ⟨x, t, ?_, hexit⟩
          simp only [hmenu]
          exact Evals.bind (evals_ofExcept.mpr ⟨rfl, rfl⟩) heval

end Console

/-! ## The reader between its calls -/

/-- The session is aligned, and the names of the groups are fit for a command line. -/
structure Ready (r : NewsReader π α) : Prop where
  connected : r.m_session.m_socket.Connected
  unread : r.m_session.m_socket.unread = []
  names : ∀ desc ∈ r.m_groupDescs, BreakFree desc.1

/-- At a point with `n` lines left on the console. -/
def Waits (n : ℕ) (r : NewsReader π α) : Prop := Ready r ∧ r.cin.length = n

/-- Lines of the console have been taken. -/
def Took (n : ℕ) (r : NewsReader π α) : Prop := Ready r ∧ r.cin.length < n

/-- No GROUP has a reply with the last number of all in it. -/
def NoLastNumber (poco : Poco π μ α) (server : Server π) : Prop :=
  ∀ d d' newsgroup g,
    Speaks poco server d (.selectNewsGroup newsgroup, .ok (.active g)) d' → g.highArticle ≠ 0xFFFFFFFF

/-! ## `getArticles` -/

/-- A group selected whose numbers have an end. -/
def Loads (n : ℕ) (r : NewsReader π α) : Prop :=
  Waits n r ∧ r.m_activeGroup.highArticle ≠ 0xFFFFFFFF

/-- The numbers still to be asked for. -/
def ahead (x : UInt32 × UInt32) (r : NewsReader π α) : ℕ :=
  r.m_activeGroup.highArticle.toNat + 1 - x.1.toNat

/-- **One round of `getArticles`** ends, and has gone on by a number unless it is the last round. -/
theorem fetchRound_total (hworks : Works poco server) (n : ℕ) (x : UInt32 × UInt32) (m : ℕ) :
    Total (fun r => Loads n r ∧ ahead x r = m) (fetchRound poco x)
      (fun y r => Sum.elim (fun x' => Loads n r ∧ ahead x' r < m) (fun _ => Waits n r) y)
      fun _ _ => True := by
  rintro r ⟨⟨⟨hready, hcin⟩, hhigh⟩, rfl⟩
  unfold fetchRound
  simp only [evals_get_bind]
  by_cases hcond : x.1 ≤ r.m_activeGroup.highArticle ∧ x.2 < 10
  · rw [if_pos hcond]
    have hle : x.1.toNat ≤ r.m_activeGroup.highArticle.toNat := UInt32.le_iff_toNat_le.mp hcond.1
    have hsucc : (x.1 + 1).toNat = x.1.toNat + 1 := Interval.toNat_succ hcond.1 hhigh
    have hahead : r.m_activeGroup.highArticle.toNat + 1 - (x.1 + 1).toNat < ahead x r := by
      unfold ahead
      omega
    obtain ⟨y, s₁, hs₁, _, hconn₁, htaken₁⟩ := member_speaks
      (show (Operation.stat x.1).run poco = Result.verdict <$> stat poco x.1 from rfl)
      hworks hready.connected hready.unread trivial
    have hstat : (inSession (stat poco x.1)).Evals r y { r with m_session := s₁ } := Evals.zoom hs₁
    cases y with
    | error e => exact ⟨.error e, _, hstat.bind_error, trivial⟩
    | ok present =>
        have hunread₁ := htaken₁ present rfl
        cases present with
        | false => exact ⟨_, _, hstat.bind (evals_return _ _),
            ⟨⟨⟨hconn₁, hunread₁, hready.names⟩, hcin⟩, hhigh⟩, hahead⟩
        | true =>
            obtain ⟨z, s₂, hs₂, _, hconn₂, htaken₂⟩ := member_speaks
              (show (Operation.articleNumber x.1).run poco =
                Result.article <$> articleNumber poco x.1 from rfl)
              hworks hconn₁ hunread₁ trivial
            have harticle : (inSession (articleNumber poco x.1)).Evals
                { r with
                  m_session := s₁
                  m_articles := r.m_articles.insert x.1 (some poco.newArticle) } z _ := Evals.zoom hs₂
            cases z with
            | error e =>
                exact ⟨.error e, _, hstat.bind (evals_modify_bind.mpr harticle.bind_error), trivial⟩
            | ok article =>
                exact ⟨_, _, hstat.bind (evals_modify_bind.mpr (harticle.bind
                    (evals_modify_bind.mpr (evals_return _ _)))),
                  ⟨⟨⟨hconn₂, htaken₂ article rfl, hready.names⟩, hcin⟩, hhigh⟩, hahead⟩
  · rw [if_neg hcond]
    exact ⟨_, _, evals_return _ _, hready, hcin⟩

/-- **`getArticles` ends.** -/
theorem getArticles_total (hworks : Works poco server) (n : ℕ) :
    Total (Loads n) (getArticles poco) (fun _ => Waits n) fun _ _ => True := by
  rw [getArticles_eq]
  intro r hr
  have hloop : Total (Loads n) (loop (fetchRound poco) (r.m_activeGroup.lowArticle, 0))
      (fun _ => Waits n) fun _ _ => True :=
    Total.loop (fun _ => Loads n) ahead (fun x m => fetchRound_total hworks n x m) _
  have hempty : Loads n ({ r with m_articles := ∅ } : NewsReader π α) :=
    ⟨⟨⟨hr.1.1.connected, hr.1.1.unread, hr.1.1.names⟩, hr.1.2⟩, hr.2⟩
  obtain ⟨x, t, heval, hexit⟩ := hloop _ hempty
  exact ⟨x, t, evals_modify_bind.mpr (evals_get_bind.mpr heval), hexit⟩

/-! ## The calls of the loops -/

theorem Ready.of_console {r : NewsReader π α} (h : Ready r) (cin : List Bytes) (cout : List Output) :
    Ready { r with cin := cin, cout := cout } := ⟨h.connected, h.unread, h.names⟩

/-- **`selectGroup`** takes a line of the console. -/
theorem selectGroup_total (hworks : Works poco server) (hhigh : NoLastNumber poco server)
    (hempty : ∃ e, poco.parse [] = .error e) (n : ℕ) :
    Total (Waits n) (selectGroup poco) (fun _ => Took n) fun _ _ => True := by
  have hchoose : Total (Waits n) (chooseGroup poco) (fun _ => Took n) fun _ _ => True :=
    chooseGroup_total (I := Ready) (fun r cin cout hr => hr.of_console cin cout) hempty n
  unfold selectGroup
  apply hchoose.bind
  intro choice
  cases choice with
  | none => exact total_pure fun _ hr => hr
  | some group =>
      intro r hr
      show ∃ x t, (Prog.get >>= _).Evals r x t ∧ _
      simp only [evals_get_bind]
      cases hdesc : r.m_groupDescs[(group - 1).toNat]? with
      | none => exact ⟨_, _, evals_throw.mpr ⟨rfl, rfl⟩, trivial⟩
      | some desc =>
          simp only [evals_modify_bind, evals_get_bind]
          have hclean : (Operation.selectNewsGroup desc.1).Clean :=
            hr.1.names desc (List.mem_of_getElem? hdesc)
          obtain ⟨y, s, hs, hspeaks, hconn, htaken⟩ := member_speaks (p := selectNewsGroup poco desc.1)
            (f := Result.active) rfl hworks hr.1.connected hr.1.unread hclean
          have hselect : (inSession (selectNewsGroup poco desc.1)).Evals
              { r with m_currentGroup := desc.1 } y
              { r with m_currentGroup := desc.1, m_session := s } := Evals.zoom hs
          cases y with
          | error e => exact ⟨.error e, _, hselect.bind_error, trivial⟩
          | ok g =>
              have hloads : Loads r.cin.length ({ r with
                  m_currentGroup := desc.1, m_session := s, m_activeGroup := g } : NewsReader π α) :=
                ⟨⟨⟨hconn, htaken g rfl, hr.1.names⟩, rfl⟩, hhigh _ _ _ _ hspeaks⟩
              obtain ⟨z, t, hload, hexit⟩ := getArticles_total hworks _ _ hloads
              cases z with
              | error e =>
                  exact ⟨.error e, t, hselect.bind (evals_modify_bind.mpr hload.bind_error), trivial⟩
              | ok u =>
                  refine ⟨.ok true, t,
                    hselect.bind (evals_modify_bind.mpr (hload.bind (evals_return _ _))), ?_⟩
                  have hlength : t.cin.length = r.cin.length := hexit.2
                  exact ⟨hexit.1, hlength ▸ hr.2⟩

/-- **`selectArticle`** takes a line of the console. -/
theorem selectArticle_total (hempty : ∃ e, poco.parseUnsigned [] = .error e) (n : ℕ) :
    Total (Waits n : NewsReader π α → Prop) (selectArticle poco) (fun _ => Took n) fun _ _ => True := by
  have hchoose : Total (Waits n) (chooseArticle poco) (fun _ => Took n) fun _ _ => True :=
    chooseArticle_total (I := Ready) (fun r cin cout hr => hr.of_console cin cout) hempty n
  unfold selectArticle
  apply hchoose.bind
  intro choice
  cases choice with
  | none => exact total_pure fun _ hr => hr
  | some number =>
      intro r hr
      exact ⟨.ok true, _, evals_modify_bind.mpr (evals_return _ _),
        ⟨hr.1.connected, hr.1.unread, hr.1.names⟩, hr.2⟩

/-- The pager takes lines of the console, and puts none back. -/
theorem length_pager_le (count : ℕ) (lines cin : List Bytes) :
    (pager count lines cin).2.length ≤ cin.length := by
  induction lines generalizing count cin with
  | nil => exact Nat.le_refl _
  | cons line lines ih =>
      have htail : cin.tail.length ≤ cin.length := by simp
      unfold pager
      split
      · split
        · exact htail
        · exact (ih (count + 1) cin.tail).trans htail
      · exact ih (count + 1) cin

/-- **`displayArticle`** ends. -/
theorem displayArticle_total (n : ℕ) :
    Total (Waits n : NewsReader π α → Prop) (displayArticle poco) (fun _ => Took (n + 1))
      fun _ _ => True := by
  intro r hr
  cases harticle : r.m_articles[r.m_selectedArticle]? with
  | none =>
      unfold displayArticle
      simp only [evals_get_bind, harticle]
      exact ⟨_, _, evals_modify_bind.mpr (evals_throw.mpr ⟨rfl, rfl⟩), trivial⟩
  | some entry =>
      cases entry with
      | none =>
          unfold displayArticle
          simp only [evals_get_bind, harticle]
          exact ⟨_, _, evals_throw.mpr ⟨rfl, rfl⟩, trivial⟩
      | some article =>
          cases hdate : poco.formatDate article "%w %B %e, %Y" with
          | error e => exact ⟨_, _, displayArticle_throws harticle hdate, trivial⟩
          | ok date =>
              refine ⟨_, _, displayArticle_evals harticle hdate, hr.1.of_console _ _, ?_⟩
              have hle := length_pager_le 0 (pieces (poco.getContent article)) r.cin
              have hcin := hr.2
              show (pager 0 (pieces (poco.getContent article)) r.cin).2.length < n + 1
              omega

/-! ## `main` -/

/-- What takes no line, or some, in the middle of a round. -/
theorem took_of_waits {p : Method π α β}
    (h : ∀ m, Total (Waits m) p (fun _ => Took (m + 1)) fun _ _ => True) (n : ℕ) :
    Total (Took n) p (fun _ => Took n) fun _ _ => True := by
  rintro r ⟨hready, hlt⟩
  obtain ⟨x, t, heval, hexit⟩ := h r.cin.length r ⟨hready, rfl⟩
  refine ⟨x, t, heval, hexit.imp (fun _ u hu => ⟨hu.1, ?_⟩) fun _ _ h => h⟩
  have hle := hu.2
  omega

theorem Took.succ {n : ℕ} {r : NewsReader π α} (h : Took n r) : Took (n + 1) r :=
  ⟨h.1, Nat.lt_succ_of_lt h.2⟩

/-- **The inner loop of `main`.** -/
theorem readArticles_total (hempty : ∃ e, poco.parseUnsigned [] = .error e) (n : ℕ) :
    Total (Waits n : NewsReader π α → Prop) (readArticles poco) (fun _ => Took n) fun _ _ => True := by
  rw [readArticles_eq]
  apply choose_total (I := Ready)
  intro m
  unfold articleRound
  apply (selectArticle_total hempty m).bind
  intro selected
  apply Total.ite
  · intro _
    apply (took_of_waits displayArticle_total m).bind
    exact fun _ => total_pure fun _ hr => hr
  · exact fun _ => total_pure fun _ hr => hr

/-- **The outer loop of `main`.** -/
theorem readGroups_total (hworks : Works poco server) (hhigh : NoLastNumber poco server)
    (hgroup : ∃ e, poco.parse [] = .error e) (harticle : ∃ e, poco.parseUnsigned [] = .error e)
    (n : ℕ) : Total (Waits n) (readGroups poco) (fun _ => Took n) fun _ _ => True := by
  have hread : ∀ m, Total (Waits m : NewsReader π α → Prop) (readArticles poco)
      (fun _ => Took (m + 1)) fun _ _ => True :=
    fun m => (readArticles_total harticle m).imp (fun _ h => h) (fun _ _ h => h.succ) fun _ _ h => h
  rw [readGroups_eq]
  apply choose_total (I := Ready)
  intro m
  unfold groupRound
  apply (selectGroup_total hworks hhigh hgroup m).bind
  intro selected
  apply Total.ite
  · intro _
    apply (took_of_waits hread m).bind
    exact fun _ => total_pure fun _ hr => hr
  · exact fun _ => total_pure fun _ hr => hr

/-- **The constructor** ends, whatever the greeting is. -/
theorem construct_total (hworks : Works poco server) {socket : DialogSocket π}
    (hconn : socket.Connected) {greeting : Bytes} (hg : StatusLine greeting)
    (hgreeting : socket.unread = greeting ++ crlf) (cin : List Bytes) :
    Total (· = ofSocket socket cin) (construct poco) (fun _ => Waits cin.length)
      fun _ _ => True := by
  rintro _ rfl
  unfold construct
  obtain ⟨x, s, hs⟩ := openSession_halts poco (.ofSocket socket)
  have hopen : (inSession (openSession poco)).Evals (ofSocket socket cin : NewsReader π α) x
      { ofSocket socket cin with m_session := s } := Evals.zoom hs
  cases x with
  | error e => exact ⟨.error e, _, hopen.bind_error, trivial⟩
  | ok u =>
      have hsocket : s.m_socket = { socket with unread := [] } :=
        openSession_socket hworks.reads hg rfl hgreeting hs
      have hconn' : s.m_socket.Connected := by
        rw [hsocket]
        exact hconn
      obtain ⟨y, s', hs', hspeaks, hconn'', htaken⟩ :=
        member_speaks (show listing.run poco = Result.groups <$>
          listNewsGroups poco (text "gmane.comp.*.boost.*") from rfl) hworks hconn'
          (by rw [hsocket]) (show listing.Clean by decide)
      have hlist : (inSession (listNewsGroups poco (text "gmane.comp.*.boost.*"))).Evals
          ({ ofSocket socket cin with m_session := s } : NewsReader π α) y
          { ofSocket socket cin with m_session := s' } := Evals.zoom hs'
      cases y with
      | error e => exact ⟨.error e, _, hopen.bind hlist.bind_error, trivial⟩
      | ok descs =>
          refine ⟨.ok (), _, hopen.bind (hlist.bind (evals_modify.mpr ⟨rfl, rfl⟩)),
            ⟨hconn'', htaken descs rfl, ?_⟩, rfl⟩
          intro desc hdesc
          exact hspeaks.groups_clean desc
            ((List.perm_insertionSort _ descs).mem_iff.mp hdesc)

/-- **The program ends.** With a server that answers, and numbers no article with the last number of
    all, `main` ends on every console, its end included. An undefined behaviour, such as that of an empty
    menu, counts as an end, with `Exception.undefined` for its outcome. -/
theorem main_halts (hworks : Works poco server) (hhigh : NoLastNumber poco server)
    (hgroup : ∃ e, poco.parse [] = .error e) (harticle : ∃ e, poco.parseUnsigned [] = .error e)
    {socket : DialogSocket π} (hconn : socket.Connected) {greeting : Bytes} (hg : StatusLine greeting)
    (hgreeting : socket.unread = greeting ++ crlf) (cin : List Bytes) :
    (main poco).Halts (ofSocket socket cin) := by
  have hbody : Total (· = ofSocket socket cin) (do construct poco; readGroups poco)
      (fun _ => Took cin.length) fun _ _ => True :=
    (construct_total hworks hconn hg hgreeting cin).bind
      fun _ => readGroups_total hworks hhigh hgroup harticle cin.length
  obtain ⟨y, r, hattempt, _⟩ := hbody.attempt _ rfl
  obtain ⟨s, hs⟩ := destroy_evals poco r.m_session
  have hdestroy : (inSession (destroy poco)).Evals r (.ok ()) { r with m_session := s } :=
    Evals.zoom hs
  unfold main
  rcases y with e | e | u
  · exact ⟨_, _, hattempt.bind_error⟩
  · cases e with
    | undefined => exact ⟨_, _, hattempt.bind (evals_throw.mpr ⟨rfl, rfl⟩)⟩
    | _ => exact ⟨_, _, hattempt.bind (hdestroy.bind (evals_return 1 _))⟩
  · exact ⟨_, _, hattempt.bind (hdestroy.bind (evals_return 0 _))⟩

/-- A console that ends in the middle of a group. -/
theorem main_halts_accepting :
    let poco := Poco.reference (Server.accepting [text "boost.user  Users"]) Reference.readAll
      (id : Bytes → Bytes)
    (main poco).Halts (ofSocket greetedSession.m_socket [text "1", text "4"]) := by
  intro poco
  have hworks : Works poco (Server.accepting [text "boost.user  Users"]) :=
    .reference (Server.accepting_conforms (by decide))
  have hhigh : NoLastNumber poco (Server.accepting [text "boost.user  Users"]) := by
    intro d d' newsgroup g hspeaks
    obtain ⟨l, message, hmessage, _, hreply, hreact⟩ := hspeaks.active
    obtain rfl : l = text "211 9 1 9 group" := List.append_cancel_right (congrArg (·.2.1) hreact).symm
    rw [hmessage (by decide)] at hreply
    have hg : groupReply poco newsgroup (text "211 9 1 9 group") = .ok ⟨newsgroup, 9, 1, 9⟩ := rfl
    rw [← Except.ok.inj (hg.symm.trans hreply)]
    show (9 : UInt32) ≠ 0xFFFFFFFF
    decide
  have hg : StatusLine (text "200 ready") := ⟨by decide, rfl⟩
  exact main_halts hworks hhigh ⟨_, rfl⟩ ⟨_, rfl⟩ ⟨rfl, rfl⟩ hg rfl _

end NewsReader

end NntpPoco
