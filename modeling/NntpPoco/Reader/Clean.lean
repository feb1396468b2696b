import NntpPoco.Reader.Wire

/-!
# `Reader.Clean` — the peer has no command of its own sent

The reader puts text that the server has sent into its own commands: the name of a group goes from a line
of the listing into the argument of GROUP. A line that `receiveMessage` has returned has no line end in it,
so neither have the names (`listNewsGroups_names`), and a call whose arguments have none writes one line
(`Operation.Clean.line_single`). `Tidy` carries this through `main`: the server reads off the connection the
commands that the reader has sent, and no others (`main_sends_lines`).
-/

namespace NntpPoco

open Lines Prog NNTPClientSession

variable {π μ α : Type} {poco : Poco π μ α}

/-! ## Command lines -/

/-- The lines that have gone out. -/
def sentLines (history : List Event) : List Bytes :=
  history.filterMap fun
    | .sent line => some line
    | _ => none

theorem mem_sentLines {history : List Event} {line : Bytes} :
    line ∈ sentLines history ↔ .sent line ∈ history := by
  rw [sentLines, List.mem_filterMap]
  constructor
  · rintro ⟨event, hevent, hline⟩
    cases event with
    | sent line' =>
        rw [← Option.some.inj hline]
        exact hevent
    | sendFailed _ => exact absurd hline (by simp)
    | status _ _ => exact absurd hline (by simp)
    | statusFailed => exact absurd hline (by simp)
  · exact fun h => ⟨_, h, rfl⟩

theorem flatten_sentLines (history : List Event) : (sentLines history).flatten = sentBytes history := by
  induction history with
  | nil => rfl
  | cons event history ih =>
      have hcons : sentBytes (event :: history) = sentLine event ++ sentBytes history := by
        rw [sentBytes, List.flatMap_cons, sentBytes]
      rw [hcons, ← ih]
      cases event <;> simp [sentLines, sentLine]

/-- What has gone out as one line: a text without a line end in it, and one behind it. -/
def IsLine (line : Bytes) : Prop := ∃ l, BreakFree l ∧ line = l ++ crlf

/-- Whatever has gone out is one line. -/
def SingleLines (history : List Event) : Prop := ∀ line, .sent line ∈ history → IsLine line

theorem SingleLines.append {history events : List Event} (h : SingleLines history)
    (h' : SingleLines events) : SingleLines (history ++ events) := by
  intro line hline
  rcases List.mem_append.mp hline with hold | hnew
  · exact h line hold
  · exact h' line hnew

/-- Lines one behind the other are the encoding of their texts. -/
theorem SingleLines.encode {history : List Event} (h : SingleLines history) :
    ∃ ls, (∀ l ∈ ls, BreakFree l) ∧ sentLines history = ls.map (· ++ crlf) ∧
      sentBytes history = encodeLines ls := by
  have htexts : ∀ line ∈ sentLines history, IsLine line :=
    fun line hline => h line (mem_sentLines.mp hline)
  rw [← flatten_sentLines]
  generalize sentLines history = lines at htexts
  induction lines with
  | nil => exact ⟨[], by simp, rfl, rfl⟩
  | cons line lines ih =>
      obtain ⟨⟨l, hl, rfl⟩, hlines⟩ := List.forall_mem_cons.mp htexts
      obtain ⟨ls, hls, rfl, hencode⟩ := ih hlines
      refine ⟨l :: ls, List.forall_mem_cons.mpr ⟨hl, hls⟩, rfl, ?_⟩
      rw [List.flatten_cons, hencode, encodeLines_cons, List.append_assoc]

theorem commandLine_single {command arg : Bytes} (hcommand : BreakFree command) (harg : BreakFree arg) :
    IsLine (commandLine command arg) := by
  refine ⟨_, breakFree_append.mpr ⟨hcommand, ?_⟩, rfl⟩
  by_cases h : arg = []
  · rw [if_pos h]
    exact breakFree_nil
  · rw [if_neg h]
    exact breakFree_cons.mpr ⟨by decide, harg⟩

/-- **A command with clean arguments is one line.** -/
theorem Operation.Clean.line_single {op : Operation} (h : op.Clean) : IsLine op.line := by
  cases op with
  | capabilities => exact commandLine_single (by decide) breakFree_nil
  | listNewsGroups wildMat => exact commandLine_single (by decide) h
  | selectNewsGroup newsgroup => exact commandLine_single (by decide) h
  | articleHeader => exact commandLine_single (by decide) breakFree_nil
  | articleRaw => exact commandLine_single (by decide) breakFree_nil
  | article => exact commandLine_single (by decide) breakFree_nil
  | articleNumber number => exact commandLine_single (by decide) (breakFree_ofUInt number)
  | stat n => exact commandLine_single (by decide) (breakFree_ofUInt n)

/-! ## Calls -/

theorem singleLines_statusEvent (r : Except Exception (Int × Bytes)) : SingleLines (statusEvent r) := by
  intro line hline
  cases r <;> simp [statusEvent] at hline

/-- An exchange sends its own line and no other. -/
theorem singleLines_exchange {line : Bytes} (hline : IsLine line) (answer : Answer) :
    SingleLines (Exchange.events ⟨line, answer⟩) := by
  intro line' hsent
  have hsame : line' = line := by
    cases answer with
    | unsent => exact absurd hsent (by simp [Exchange.events])
    | unanswered => simpa [Exchange.events] using hsent
    | status code response => simpa [Exchange.events] using hsent
  rw [hsame]
  exact hline

/-- **A call** with clean arguments sends single lines only. -/
theorem called_singleLines {s t : NNTPClientSession π} (use : Use) {o : Option Exception}
    (hclean : ∀ op, use = .command op → op.Clean) (hs : SingleLines s.history)
    (h : Called poco s (use, o) t) : SingleLines t.history := by
  obtain ⟨events, htraces, hhistory⟩ := called_traces h
  rw [hhistory]
  apply hs.append
  cases htraces with
  | @returned op code response => exact singleLines_exchange (hclean op rfl).line_single _
  | @threw op e answer => exact singleLines_exchange (hclean op rfl).line_single _
  | greeting => exact singleLines_statusEvent _
  | quit hcloses => exact singleLines_exchange (commandLine_single (by decide) breakFree_nil) _
  | idle => exact fun _ h => absurd h List.not_mem_nil

/-- The member function of a command. -/
theorem command_singleLines {β : Type} {p : Method π β} {f : β → Result α} (op : Operation)
    (hop : op.run poco = f <$> p) (hclean : op.Clean) :
    Keeps (fun s : NNTPClientSession π => SingleLines s.history) p := by
  intro s x t hs heval
  have hrun : (op.run poco).Evals s (x.map f) t := by
    rw [hop]
    exact heval.map f
  refine called_singleLines (.command op) (fun op' h => ?_) hs ⟨_, hrun, rfl⟩
  rw [← Use.command.inj h]
  exact hclean

theorem life_singleLines (call : Call) :
    Keeps (fun s : NNTPClientSession π => SingleLines s.history) (call.run poco) :=
  fun _ _ _ hs heval => called_singleLines (.life call) (by simp) hs ⟨_, heval, rfl⟩

/-! ## The names of a listing -/

section Names

variable (hreceives : poco.ReceivesLines)
include hreceives

theorem receive_clean {P : NNTPClientSession π → Prop} :
    Triple P (call poco.receiveMessage fun _ => []) fun x _ => BreakFree x.2 := by
  intro s x t _ heval
  obtain ⟨hx, _⟩ := Prod.mk.inj (evals_lift.mp heval)
  exact hreceives s.m_socket x hx

/-- **The lines of a response** have no line end in them. -/
theorem multiLineResponse_clean :
    Triple (fun _ => True) (multiLineResponse poco) fun ls _ => ∀ l ∈ ls, BreakFree l := by
  rw [multiLineResponse_eq]
  refine (receive_clean hreceives).bind fun first => ?_
  -- the lines so far, and the one that has been read ahead
  have hround : ∀ x : List Bytes × Bytes,
      Triple (fun _ => (∀ l ∈ x.1, BreakFree l) ∧ BreakFree x.2) (multiLineRound poco x) fun y _ =>
        Sum.elim (fun x' => (∀ l ∈ x'.1, BreakFree l) ∧ BreakFree x'.2)
          (fun ls => ∀ l ∈ ls, BreakFree l) y := by
    rintro ⟨acc, line⟩ s y t ⟨hacc, hline⟩ heval
    unfold multiLineRound at heval
    by_cases hdot : line = text "."
    · rw [if_neg (not_not.mpr hdot)] at heval
      rw [← Except.ok.inj (evals_pure.mp heval).1.symm]
      exact hacc
    · rw [if_pos hdot] at heval
      obtain ⟨next, s', hnext, hrest⟩ := evals_bind_ok.mp heval
      rw [← Except.ok.inj (evals_pure.mp hrest).1.symm]
      refine ⟨?_, receive_clean hreceives (P := fun _ => True) s next s' trivial hnext⟩
      intro l hl
      rcases List.mem_append.mp hl with hl | hl
      · exact hacc l hl
      · rw [List.mem_singleton.mp hl]
        exact hline
  intro s ls t hs heval
  exact Triple.loop (fun x _ => (∀ l ∈ x.1, BreakFree l) ∧ BreakFree x.2) hround ([], first.2) s ls t
    ⟨by simp, hs⟩ heval

/-- **The names of a listing** have no line end in them. -/
theorem listNewsGroups_names (wildMat : Bytes) :
    Triple (fun _ => True) (listNewsGroups poco wildMat) fun descs _ =>
      ∀ desc ∈ descs, BreakFree desc.1 := by
  -- the block, where the command has been accepted
  have hblock : Triple (fun _ => True)
      (multiLineResponse poco >>= fun groups => Prog.ofExcept (groups.mapM groupDesc))
      fun descs _ => ∀ desc ∈ descs, BreakFree desc.1 := by
    refine (multiLineResponse_clean hreceives).bind fun ls => triple_ofExcept ?_
    intro descs _ hdescs hclean desc hdesc
    rw [mapM_groupDesc] at hdescs
    split at hdescs
    · rw [← Except.ok.inj hdescs] at hdesc
      obtain ⟨line, hline, rfl⟩ := List.mem_map.mp hdesc
      exact (hclean line hline).of_isPrefix (List.takeWhile_prefix _)
    · exact absurd hdescs (by simp)
  have hsend : Triple (fun _ => True) (sendCommandArg poco (text "LIST NEWSGROUPS") wildMat)
      fun _ _ => True := fun _ _ _ _ _ => trivial
  unfold listNewsGroups
  exact hsend.bind fun _ => Triple.ite (fun _ => triple_throw _) fun _ => hblock

end Names

namespace NewsReader

/-! ## The reader -/

/-- No line end in the names at hand, and none inside what has been sent. -/
structure Tidy (r : NewsReader π α) : Prop where
  names : ∀ desc ∈ r.m_groupDescs, BreakFree desc.1
  sent : SingleLines r.m_session.history

theorem inSession_tidy {β : Type} {p : NNTPClientSession.Method π β}
    (hp : Keeps (fun s : NNTPClientSession π => SingleLines s.history) p) :
    Keeps (Tidy (α := α)) (inSession p) :=
  Keeps.zoom fun r x s hr heval => ⟨hr.names, hp r.m_session x s hr.sent heval⟩

section Tidy

variable (hreceives : poco.ReceivesLines)
include hreceives

/-- **The constructor** takes the names over from the listing. -/
theorem construct_tidy : Keeps Tidy (construct poco) := by
  have hlist : Keeps (fun s : NNTPClientSession π => SingleLines s.history)
      (listNewsGroups poco (text "gmane.comp.*.boost.*")) :=
    command_singleLines listing (f := Result.groups) rfl (by decide)
  unfold construct
  refine (inSession_tidy (life_singleLines .open)).bind fun _ => ?_
  intro r x t hr heval
  rcases evals_bind.mp heval with ⟨e, hthrows, rfl⟩ | ⟨groupDescs, r₁, hlisted, hsort⟩
  · exact inSession_tidy hlist r _ t hr hthrows
  · have hr₁ := inSession_tidy hlist r _ r₁ hr hlisted
    obtain ⟨s₁, hs₁, rfl⟩ := evals_zoom.mp hlisted
    obtain ⟨rfl, rfl⟩ := evals_modify.mp hsort
    have hnames := listNewsGroups_names hreceives _ r.m_session groupDescs s₁ trivial hs₁
    refine ⟨fun desc hdesc => ?_, hr₁.sent⟩
    exact hnames desc ((List.mem_insertionSort _).mp hdesc)

end Tidy

theorem fetchRound_tidy (x : UInt32 × UInt32) : Keeps Tidy (fetchRound poco x) := by
  have hstat : Keeps (fun s : NNTPClientSession π => SingleLines s.history) (stat poco x.1) :=
    command_singleLines (.stat x.1) (f := Result.verdict) rfl trivial
  have harticle : Keeps (fun s : NNTPClientSession π => SingleLines s.history)
      (articleNumber poco x.1) :=
    command_singleLines (.articleNumber x.1) (f := Result.article) rfl trivial
  have hinsert : ∀ v : Option α, Keeps Tidy
      (Prog.modify fun r => { r with m_articles := r.m_articles.insert x.1 v } : Method π α Unit) :=
    fun v => keeps_modify fun r hr => ⟨hr.names, hr.sent⟩
  unfold fetchRound
  refine keeps_get.bind fun r => Keeps.ite ?_ (keeps_pure _)
  refine (inSession_tidy hstat).bind fun present => Keeps.ite ?_ (keeps_pure _)
  refine (hinsert _).bind fun _ => (inSession_tidy harticle).bind fun article => ?_
  exact (hinsert _).bind fun _ => keeps_pure _

theorem getArticles_tidy : Keeps Tidy (getArticles poco) := by
  have hempty : Keeps Tidy (Prog.modify fun r => { r with m_articles := ∅ } : Method π α Unit) :=
    keeps_modify fun r hr => ⟨hr.names, hr.sent⟩
  rw [getArticles_eq]
  exact hempty.bind fun _ => keeps_get.bind fun r => Keeps.loop fetchRound_tidy _

/-- **`selectGroup`** has the name of a group at hand for the argument of its GROUP. -/
theorem selectGroup_tidy : Keeps Tidy (selectGroup poco) := by
  unfold selectGroup
  refine (chooseGroup_keeps fun r cin cout hr => ⟨hr.names, hr.sent⟩).bind fun choice => ?_
  cases choice with
  | none => exact keeps_pure _
  | some group =>
      intro r x t hr heval
      replace heval := evals_get_bind.mp heval
      cases hdesc : r.m_groupDescs[(group - 1).toNat]? with
      | none =>
          rw [hdesc] at heval
          rw [(evals_throw.mp heval).2]
          exact hr
      | some desc =>
          rw [hdesc] at heval
          rw [evals_modify_bind, evals_get_bind] at heval
          have hclean : (Operation.selectNewsGroup desc.1).Clean :=
            hr.names desc (List.mem_of_getElem? hdesc)
          have hselect : Keeps (fun s : NNTPClientSession π => SingleLines s.history)
              (selectNewsGroup poco desc.1) := command_singleLines _ (f := Result.active) rfl hclean
          have hactive : ∀ g, Keeps Tidy
              (Prog.modify fun r => { r with m_activeGroup := g } : Method π α Unit) :=
            fun g => keeps_modify fun r hr => ⟨hr.names, hr.sent⟩
          have hload : Keeps Tidy (getArticles poco >>= fun _ => pure true) :=
            getArticles_tidy.bind fun _ => keeps_pure true
          have hrest := (inSession_tidy hselect).bind fun g => (hactive g).bind fun _ => hload
          have hnamed : Tidy ({ r with m_currentGroup := desc.1 } : NewsReader π α) :=
            ⟨hr.names, hr.sent⟩
          exact hrest _ x t hnamed heval

/-- **Nobody sends a command through the reader.** Whatever the server and the console do, the bytes on the
    connection of a `main` that has ended are whole lines, which can be read in one way only: as the commands
    that the reader itself has sent. -/
theorem main_sends_lines (hlines : poco.WritesLines) (hreceives : poco.ReceivesLines)
    {socket : DialogSocket π} {cin : List Bytes} {x : Except Exception ℕ} {t : NewsReader π α}
    (h : (main poco).Evals (ofSocket socket cin) x t) :
    ∃ ls, (∀ l ∈ ls, BreakFree l) ∧ sentLines t.m_session.history = ls.map (· ++ crlf) ∧
      t.m_session.m_socket.written = socket.written ++ encodeLines ls ∧
      ∀ ls', (∀ l ∈ ls', BreakFree l) →
        t.m_session.m_socket.written = socket.written ++ encodeLines ls' → ls' = ls := by
  have hkeeps : Keeps Tidy (main poco) := by
    apply main_keeps
    · exact construct_tidy hreceives
    · exact selectGroup_tidy
    · exact selectArticle_keeps fun r cin cout number hr => ⟨hr.names, hr.sent⟩
    · exact displayArticle_keeps fun r cin cout a hr => ⟨hr.names, hr.sent⟩
    · exact inSession_tidy (life_singleLines .destroy)
  have hstart : Tidy (ofSocket socket cin : NewsReader π α) :=
    ⟨fun _ h => absurd h List.not_mem_nil, fun _ h => absurd h List.not_mem_nil⟩
  have hfaithful : Faithful (.ofSocket socket) t.m_session :=
    main_kept (faithful_calls hlines) _ x t (.refl _) h
  obtain ⟨ls, hls, hsent, hbytes⟩ := (hkeeps _ x t hstart h).sent.encode
  have hwritten : t.m_session.m_socket.written = socket.written ++ encodeLines ls := by
    rw [hfaithful.of_socket, hbytes]
  refine ⟨ls, hls, hsent, hwritten, fun ls' hls' hwritten' => ?_⟩
  rw [hwritten] at hwritten'
  exact (encodeLines_injective hls hls' (List.append_cancel_left hwritten')).symm

/-- A server that puts a command behind a line end inside the name of a group. -/
theorem main_sends_lines_accepting :
    let poco := Poco.reference (Server.accepting [text "boost\rQUIT now"]) Reference.readAll id
    let start : NewsReader ℕ Bytes := .ofSocket greetedSession.m_socket [text "1", text "q", text "q"]
    ∃ t, (main poco).Evals start (.ok 0) t ∧ ∃ ls, (∀ l ∈ ls, BreakFree l) ∧
      sentLines t.m_session.history = ls.map (· ++ crlf) ∧
      t.m_session.m_socket.written = greetedSession.m_socket.written ++ encodeLines ls ∧
      ∀ ls', (∀ l ∈ ls', BreakFree l) →
        t.m_session.m_socket.written = greetedSession.m_socket.written ++ encodeLines ls' → ls' = ls := by
  intro poco start
  have hrun : ((main poco).run 99 start).map (fun x => (x.1, ())) = some (.ok 0, ()) := by
    decide +kernel
  obtain ⟨t, hmain, _⟩ := exists_evals_of_run 99 (fun _ : NewsReader ℕ Bytes => ()) hrun
  exact ⟨t, hmain, main_sends_lines Reference.writesLines Reference.receivesLines hmain⟩

end NewsReader

end NntpPoco
