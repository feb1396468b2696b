import NntpPoco.Poco.Reference
import NntpPoco.Session.Commands

/-!
# `Session.Framing` — what a call writes

A command writes its command line before anything else and nothing after it: the rest of the call only
reads. `Undisturbed` collects what the rest of a call may do to a session (`KeptByReading`, where the
command is not GROUP), and `handle_keeps` is the frame rule that follows. So the history of a command that returns is one exchange (`run_returns`), and
what it has written is its command line. What the argument of `listNewsGroups` and `selectNewsGroup` is
made of nobody looks at, so it is one command line only where the argument has no line end in it
(`call_writes_verbatim`).
-/

namespace NntpPoco

open Lines Prog NNTPClientSession

variable {π μ α : Type} {poco : Poco π μ α}

/-! ## The frame of a command -/

/-- A line or a letter read keeps `I`. -/
structure KeptByReading (poco : Poco π μ α) (I : NNTPClientSession π → Prop) : Prop where
  receiveMessage : ∀ s, I s → I (s.after (poco.receiveMessage s.m_socket).2 [])
  get : ∀ s, I s → I (s.after (poco.get s.m_socket).2 [])

/-- What may happen to a session once the status line is in keeps `I`: a line or a letter read, the
    members of the group assigned. -/
structure Undisturbed (poco : Poco π μ α) (I : NNTPClientSession π → Prop) : Prop
    extends KeptByReading poco I where
  newsGroup : ∀ s newsgroup, I s → I { s with m_newsGroup := newsgroup }
  numArticles : ∀ s n, I s → I { s with m_numArticles := n }
  lowArticle : ∀ s n, I s → I { s with m_lowArticle := n }
  highArticle : ∀ s n, I s → I { s with m_highArticle := n }

namespace KeptByReading

variable {I : NNTPClientSession π → Prop} (h : KeptByReading poco I)
include h

/-- Whoever does not look at the members of the group is not disturbed by what is assigned to them. -/
theorem undisturbed (hmembers : ∀ s newsGroup numArticles lowArticle highArticle, I s →
    I { s with m_newsGroup := newsGroup, m_numArticles := numArticles, m_lowArticle := lowArticle,
               m_highArticle := highArticle }) : Undisturbed poco I where
  toKeptByReading := h
  newsGroup s newsgroup hs :=
    hmembers s newsgroup s.m_numArticles s.m_lowArticle s.m_highArticle hs
  numArticles s n hs := hmembers s s.m_newsGroup n s.m_lowArticle s.m_highArticle hs
  lowArticle s n hs := hmembers s s.m_newsGroup s.m_numArticles n s.m_highArticle hs
  highArticle s n hs := hmembers s s.m_newsGroup s.m_numArticles s.m_lowArticle n hs

theorem multiLineResponse_keeps : Keeps I (multiLineResponse poco) := by
  have hline : Keeps I (call poco.receiveMessage fun _ => []) := keeps_lift h.receiveMessage
  rw [multiLineResponse_eq]
  refine hline.bind fun first => Keeps.loop (fun x => ?_) _
  unfold multiLineRound
  exact Keeps.ite (hline.bind fun _ => keeps_pure _) (keeps_pure _)

theorem blockTail_keeps (accepts : Int → Bool) (message : String) (answer : Int × Bytes) :
    Keeps I (blockTail poco accepts message answer) := by
  unfold blockTail
  exact Keeps.ite (keeps_throw _) h.multiLineResponse_keeps

theorem listTail_keeps (answer : Int × Bytes) : Keeps I (listTail poco answer) := by
  unfold listTail
  exact Keeps.ite (keeps_throw _) (h.multiLineResponse_keeps.bind fun _ => keeps_ofExcept _)

theorem misGet_keeps (mis : MailInputStream μ) : Keeps I (misGet poco mis) := by
  have hsis : ∀ below, Keeps I (sisGet poco below) := by
    intro below
    unfold sisGet readFromDevice
    refine Keeps.ite ((keeps_lift h.get).attempt.bind fun b => ?_) (keeps_pure _)
    cases b <;> exact keeps_pure _
  rw [misGet_eq]
  apply Keeps.loop
  intro x
  unfold misRound
  cases poco.mailInputStream.next x.1 with
  | give c m => exact keeps_pure _
  | take k => exact (hsis _).bind fun _ => keeps_pure _

theorem readArticle_keeps (mis : MailInputStream μ) : Keeps I (readArticle poco mis) := by
  rw [readArticle_eq]
  apply Keeps.loop
  intro x
  unfold readRound
  cases poco.read.step x.1 with
  | some r => exact (keeps_ofExcept _).bind fun _ => keeps_pure _
  | none =>
      refine (h.misGet_keeps _).bind ?_
      intro c
      cases c.1 with
      | some b => exact keeps_pure _
      | none => exact (keeps_ofExcept _).bind fun _ => keeps_pure _

theorem drain_keeps (mis : MailInputStream μ) : Keeps I (drain poco mis) := by
  rw [drain_eq]
  apply Keeps.loop
  intro mis
  unfold drainRound
  exact Keeps.ite ((h.misGet_keeps _).bind fun _ => keeps_pure _) (keeps_pure _)

theorem articleTail_keeps (answer : Int × Bytes) : Keeps I (articleTail poco answer) := by
  unfold articleTail articleBody
  refine Keeps.ite (keeps_throw _) ((h.readArticle_keeps _).bind fun x => ?_)
  exact (h.drain_keeps _).bind fun _ => keeps_pure _

/-- **Only GROUP assigns members**: any other command keeps, after its status line, what reading keeps. -/
theorem handle_keeps {op : Operation} (hop : ∀ newsgroup, op ≠ .selectNewsGroup newsgroup)
    (answer : Int × Bytes) : Keeps I (op.handle poco answer) := by
  cases op with
  | capabilities => exact (h.blockTail_keeps _ _ answer).map _
  | listNewsGroups wildMat => exact (h.listTail_keeps answer).map _
  | selectNewsGroup newsgroup => exact absurd rfl (hop newsgroup)
  | articleHeader => exact (h.blockTail_keeps _ _ answer).map _
  | articleRaw => exact (h.blockTail_keeps _ _ answer).map _
  | article => exact (h.articleTail_keeps answer).map _
  | articleNumber number => exact (h.articleTail_keeps answer).map _
  | stat n => exact (keeps_pure _).map _

end KeptByReading

namespace Undisturbed

variable {I : NNTPClientSession π → Prop} (h : Undisturbed poco I)
include h

theorem groupTail_keeps (newsgroup : Bytes) (answer : Int × Bytes) :
    Keeps I (groupTail poco newsgroup answer) := by
  unfold groupTail
  refine Keeps.ite (keeps_throw _) ?_
  refine (keeps_modify fun s => h.newsGroup s _).bind ?_
  intro _
  refine (keeps_ofExcept _).bind ?_
  intro numArticles
  refine (keeps_modify fun s => h.numArticles s _).bind ?_
  intro _
  refine (keeps_ofExcept _).bind ?_
  intro lowArticle
  refine (keeps_modify fun s => h.lowArticle s _).bind ?_
  intro _
  refine (keeps_ofExcept _).bind ?_
  intro highArticle
  refine (keeps_modify fun s => h.highArticle s _).bind ?_
  intro _
  exact keeps_get.bind fun _ => keeps_pure _

/-- **The frame rule.** Whatever a command does after its status line keeps `I`. -/
theorem handle_keeps (op : Operation) (answer : Int × Bytes) : Keeps I (op.handle poco answer) := by
  cases op with
  | selectNewsGroup newsgroup => exact (h.groupTail_keeps newsgroup answer).map _
  | _ => exact h.toKeptByReading.handle_keeps (by simp) answer

end Undisturbed

/-- The exchange itself keeps what both of its calls keep. -/
theorem exchange_keeps {I : NNTPClientSession π → Prop} {send : Action π Unit} {line : Bytes}
    (hsend : ∀ s, I s → I (s.after (send s.m_socket).2 (sentEvent line (send s.m_socket).1)))
    (hstatus : ∀ s, I s → I (s.after (poco.receiveStatusMessage s.m_socket).2
      (statusEvent (poco.receiveStatusMessage s.m_socket).1))) :
    Keeps I (exchange poco send line) := by
  unfold exchange
  exact (keeps_lift hsend).bind fun _ => keeps_lift hstatus

/-! ## The history -/

/-- After its status line a command leaves nothing in the history. -/
theorem handle_history {op : Operation} {answer : Int × Bytes} {s t : NNTPClientSession π}
    {x : Except Exception (Result α)} (h : (op.handle poco answer).Evals s x t) :
    t.history = s.history := by
  have hkept : KeptByReading poco fun s' : NNTPClientSession π => s'.history = s.history := by
    constructor
    · intro s' hs'
      exact (List.append_nil _).trans hs'
    · intro s' hs'
      exact (List.append_nil _).trans hs'
  have hundisturbed := hkept.undisturbed fun _ _ _ _ _ hs' => hs'
  exact hundisturbed.handle_keeps op answer s x t rfl h

/-- **A command that returns** has sent its command line and read one status line. -/
theorem run_returns {op : Operation} {s t : NNTPClientSession π} {x : Result α}
    (h : (op.run poco).Evals s (.ok x) t) :
    ∃ status response s₁, (op.handle poco (status, response)).Evals s₁ (.ok x) t ∧
      t.history = s.history ++ [.sent op.line, .status status response] := by
  rw [Operation.run_eq] at h
  obtain ⟨⟨status, response⟩, s₁, hexchange, hhandle⟩ := evals_bind_ok.mp h
  rcases exchange_cases hexchange with ⟨e, _, _, herr, _⟩ | ⟨_, socket, _, _, hs₁⟩
  · exact absurd herr (by simp)
  · refine ⟨status, response, s₁, hhandle, ?_⟩
    rw [handle_history hhandle, hs₁]
    rfl

/-- Whichever way it ends, a command only adds to the history. -/
theorem run_history_grows (op : Operation) (base : List Event) :
    Keeps (fun s : NNTPClientSession π => base <+: s.history) (op.run poco) := by
  have hadd : ∀ (s : NNTPClientSession π) (socket : DialogSocket π) (events : List Event),
      base <+: s.history → base <+: (s.after socket events).history :=
    fun s _ events hs => hs.trans (List.prefix_append s.history events)
  rw [Operation.run_eq]
  refine (exchange_keeps (fun s hs => hadd s _ _ hs) fun s hs => hadd s _ _ hs).bind ?_
  intro answer s x t hs hhandle
  rw [handle_history hhandle]
  exact hs

/-! ## The bytes written -/

/-- `bytes` are one command line: they end in CRLF and have no other CR or LF in them. -/
def OneCommandLine (bytes : Bytes) : Prop := ∃ l, bytes = l ++ crlf ∧ BreakFree l

theorem oneCommandLine_iff {command arg : Bytes} (hcommand : BreakFree command) :
    OneCommandLine (commandLine command arg) ↔ BreakFree arg := by
  -- the command and the space are free of line ends, so it is the argument that decides
  have hbody : BreakFree (command ++ (if arg = [] then [] else 32 :: arg)) ↔ BreakFree arg := by
    by_cases harg : arg = []
    · simp [harg, hcommand]
    · simp only [harg, if_false, breakFree_append, hcommand, true_and, breakFree_cons]
      exact and_iff_right ⟨by decide, by decide⟩
  constructor
  · rintro ⟨l, hl, hfree⟩
    rw [commandLine, List.append_left_inj] at hl
    rw [← hl] at hfree
    exact hbody.mp hfree
  · intro harg
    exact ⟨_, rfl, hbody.mpr harg⟩

/-- After its status line a command writes nothing. -/
theorem handle_written (hverbatim : poco.WritesVerbatim) {op : Operation} {answer : Int × Bytes}
    {s t : NNTPClientSession π} {x : Except Exception (Result α)}
    (heval : (op.handle poco answer).Evals s x t) : t.m_socket.written = s.m_socket.written := by
  have hkept : KeptByReading poco
      fun s' : NNTPClientSession π => s'.m_socket.written = s.m_socket.written := by
    constructor
    · intro s' hs'
      exact (hverbatim.receiveMessage s'.m_socket).trans hs'
    · intro s' hs'
      exact (hverbatim.get s'.m_socket).trans hs'
  have hundisturbed := hkept.undisturbed fun _ _ _ _ _ hs' => hs'
  exact hundisturbed.handle_keeps op answer s x t rfl heval

/-- From `s` to `t`, a call that ends by `x` has thrown with nothing written, or has written just `line`. -/
def ThrowsOrWrites {β : Type} (line : Bytes) (s : NNTPClientSession π) (x : Except Exception β)
    (t : NNTPClientSession π) : Prop :=
  ((∃ e, x = .error e) ∧ t.m_socket.written = s.m_socket.written) ∨
    t.m_socket.written = s.m_socket.written ++ line

theorem exchange_written (hverbatim : poco.WritesVerbatim) {command arg : Bytes}
    (s : NNTPClientSession π) :
    ∃ r s₁, (sendCommandArg poco command arg).Evals s r s₁ ∧
      ThrowsOrWrites (commandLine command arg) s r s₁ := by
  rw [sendCommandArg_eq]
  unfold exchange
  have hcall : (call (poco.sendMessageArg command arg) (sentEvent (commandLine command arg))).Evals s
      _ _ := evals_call.mpr ⟨rfl, rfl⟩
  -- the status reader, which comes next, writes nothing
  rcases hverbatim.sendMessageArg command arg s.m_socket with ⟨e, he, hwritten⟩ | ⟨hok, hwritten⟩
  · rw [he] at hcall
    exact ⟨_, _, hcall.bind_error, Or.inl ⟨⟨e, rfl⟩, hwritten⟩⟩
  · rw [hok] at hcall
    refine ⟨_, _, hcall.bind (evals_call.mpr ⟨rfl, rfl⟩), Or.inr ?_⟩
    exact (hverbatim.receiveStatusMessage _).trans hwritten

/-- **A command that ends** throws with its exchange, or has written what the exchange has. -/
theorem run_written (hverbatim : poco.WritesVerbatim) {op : Operation} {s s₁ t : NNTPClientSession π}
    {r : Except Exception (Int × Bytes)} {x : Except Exception (Result α)}
    (hexchange : (exchange poco (op.send poco) op.line).Evals s r s₁)
    (h : (op.run poco).Evals s x t) :
    (∀ e, r = .error e → x = .error e) ∧ t.m_socket.written = s₁.m_socket.written := by
  rw [Operation.run_eq] at h
  rcases evals_bind.mp h with ⟨e, he, rfl⟩ | ⟨answer, s', hs', hhandle⟩
  · obtain ⟨rfl, rfl⟩ := he.unique hexchange
    exact ⟨fun e' herr => congrArg _ (Except.error.inj herr), rfl⟩
  · obtain ⟨rfl, rfl⟩ := hs'.unique hexchange
    exact ⟨fun e herr => absurd herr (by simp), handle_written hverbatim hhandle⟩

/-- **One call, its argument verbatim.** Whatever the argument, a call of `listNewsGroups` or
    `selectNewsGroup` that ends has thrown with nothing written, or has written exactly the command line
    with that argument in it. It is the exchange that writes it: where that throws the call throws, and
    behind it nothing is written. What is written is one command line if and only if the argument has no
    CR and no LF. -/
theorem call_writes_verbatim (hverbatim : poco.WritesVerbatim) {arg : Bytes} {op : Operation}
    (hop : op = .listNewsGroups arg ∨ op = .selectNewsGroup arg) (s : NNTPClientSession π) :
    (∀ x t, (op.run poco).Evals s x t → ThrowsOrWrites op.line s x t) ∧
    (∃ r s₁, (exchange poco (op.send poco) op.line).Evals s r s₁ ∧ ThrowsOrWrites op.line s r s₁ ∧
      (∀ e, r = .error e → (op.run poco).Evals s (.error e) s₁) ∧
      ∀ x t, (op.run poco).Evals s x t → t.m_socket.written = s₁.m_socket.written) ∧
    (OneCommandLine op.line ↔ BreakFree arg) := by
  have hexchange : ∃ r s₁, (exchange poco (op.send poco) op.line).Evals s r s₁ ∧
      ThrowsOrWrites op.line s r s₁ := by
    rcases hop with rfl | rfl <;> exact exchange_written hverbatim s
  have hline : OneCommandLine op.line ↔ BreakFree arg := by
    rcases hop with rfl | rfl <;> exact oneCommandLine_iff (by decide)
  obtain ⟨r, s₁, heval, hwrites⟩ := hexchange
  refine ⟨fun x t hrun => ?_, ⟨r, s₁, heval, hwrites, ?_, ?_⟩, hline⟩
  · obtain ⟨hthrows, hwritten⟩ := run_written hverbatim heval hrun
    unfold ThrowsOrWrites
    rw [hwritten]
    exact hwrites.imp_left fun ⟨⟨e, herr⟩, hnothing⟩ => ⟨⟨e, hthrows e herr⟩, hnothing⟩
  · rintro e rfl
    rw [Operation.run_eq]
    exact heval.bind_error
  · exact fun x t hrun => (run_written hverbatim heval hrun).2

theorem call_writes_verbatim_group :
    let poco := Poco.reference (Server.accepting []) Reference.readAll id
    let op := Operation.selectNewsGroup (text "gmane.comp.lib.boost.user")
    (∀ x t, (op.run poco).Evals openedSession x t → ThrowsOrWrites op.line openedSession x t) ∧
    (∃ r s₁, (exchange poco (op.send poco) op.line).Evals openedSession r s₁ ∧
      ThrowsOrWrites op.line openedSession r s₁ ∧
      (∀ e, r = .error e → (op.run poco).Evals openedSession (.error e) s₁) ∧
      ∀ x t, (op.run poco).Evals openedSession x t →
        t.m_socket.written = s₁.m_socket.written) ∧
    (OneCommandLine op.line ↔ BreakFree (text "gmane.comp.lib.boost.user")) :=
  call_writes_verbatim Reference.writesVerbatim (Or.inr rfl) openedSession

/-- A group name with a line end in it has `selectNewsGroup` write two command lines. -/
theorem group_writes_two_lines :
    let poco := Poco.reference (Server.accepting []) Reference.readAll id
    let newsgroup := text "a\r\nQUIT"
    ∃ x t, ((Operation.selectNewsGroup newsgroup).run poco).Evals openedSession x t ∧
      t.m_socket.written = openedSession.m_socket.written ++ text "GROUP a\r\nQUIT\r\n" ∧
      ¬ OneCommandLine (text "GROUP a\r\nQUIT\r\n") := by
  intro poco newsgroup
  refine ⟨_, _, .of_run 1 rfl, rfl, ?_⟩
  show ¬ OneCommandLine (commandLine (text "GROUP") newsgroup)
  rw [oneCommandLine_iff (by decide)]
  decide

end NntpPoco
