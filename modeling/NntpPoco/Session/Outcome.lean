import NntpPoco.Poco.Decimal
import NntpPoco.Session.Group
import NntpPoco.Session.Lifecycle

/-!
# `Session.Outcome` — what a command comes to, whatever Poco and the server do

`run_cases` says once what a call of a command can do to the history of a session and what it can come
to: its command line does not go out, or is not answered, and it throws; or a status line is read and
the rest is `handle`. `run_activeGroup` and `run_isOpen` say which members it may touch, and
`accepted_of_handle` what a result says about the status line.
-/

namespace NntpPoco

open Lines Prog NNTPClientSession

variable {π μ α : Type} {poco : Poco π μ α}

/-! ## Exchanges -/

/-- What became of a command line: it did not go out, no status line came back, or one did. -/
inductive Answer
  | unsent
  | unanswered
  | status (code : Int) (response : Bytes)
  deriving DecidableEq, Repr

/-- The answer is a status line with which the command is completed. -/
def Answer.completed : Answer → Bool
  | .status code _ => isPositiveCompletion code
  | _ => false

/-- A command line and what became of it. -/
structure Exchange where
  line : Bytes
  answer : Answer
  deriving DecidableEq, Repr

/-- How the history shows an exchange. -/
def Exchange.events : Exchange → List Event
  | ⟨line, .unsent⟩ => [.sendFailed line]
  | ⟨line, .unanswered⟩ => [.sent line, .statusFailed]
  | ⟨line, .status code response⟩ => [.sent line, .status code response]

/-- A command line of the history is that of one of its exchanges. -/
theorem exchange_of_sent {es : List Exchange} {line : Bytes} {before after : List Event}
    (h : es.flatMap Exchange.events = before ++ .sent line :: after) :
    ∃ es₁ e es₂, es = es₁ ++ e :: es₂ ∧ e.line = line ∧ before = es₁.flatMap Exchange.events ∧
      .sent line :: after = e.events ++ es₂.flatMap Exchange.events := by
  induction es generalizing before with
  | nil => exact absurd h (by simp)
  | cons e es ih =>
      rw [List.flatMap_cons] at h
      rcases List.append_eq_append_iff.mp h with ⟨k, hk, hrest⟩ | ⟨k, hk, hrest⟩
      · obtain ⟨es₁, e', es₂, rfl, hline, rfl, hafter⟩ := ih hrest
        exact ⟨e :: es₁, e', es₂, rfl, hline, hk, hafter⟩
      · cases before with
        | nil =>
            obtain rfl : e.events = k := hk
            refine ⟨[], e, es, rfl, ?_, rfl, hrest⟩
            obtain ⟨line', answer⟩ := e
            cases answer with
            | unsent => exact absurd (List.cons.inj hrest).1 (by simp)
            | unanswered => exact (Event.sent.inj (List.cons.inj hrest).1).symm
            | status code response => exact (Event.sent.inj (List.cons.inj hrest).1).symm
        | cons b before =>
            -- a command line is the first event of its exchange, so it is in the next one
            cases k with
            | nil =>
                have hes : es.flatMap Exchange.events = [] ++ .sent line :: after := hrest.symm
                obtain ⟨es₁, e', es₂, rfl, hline, hnil, hafter⟩ := ih hes
                refine ⟨e :: es₁, e', es₂, rfl, hline, ?_, hafter⟩
                rw [List.flatMap_cons, ← hnil, hk, List.append_nil, List.append_nil]
            | cons k₁ k =>
                obtain rfl : .sent line = k₁ := (List.cons.inj hrest).1
                obtain ⟨line', answer⟩ := e
                cases answer with
                | unsent => exact absurd (congrArg List.length hk) (by simp [Exchange.events])
                | unanswered =>
                    have hlast := congrArg List.tail hk
                    cases before <;> simp [Exchange.events] at hlast
                | status code response =>
                    have hlast := congrArg List.tail hk
                    cases before <;> simp [Exchange.events] at hlast

/-- Two commands with the same word are written alike only with the same argument. -/
theorem commandLine_injective {command arg arg' : Bytes}
    (h : commandLine command arg = commandLine command arg') : arg = arg' := by
  have hargs : (if arg = [] then [] else 32 :: arg) = if arg' = [] then [] else 32 :: arg' := by
    have hbody := List.append_cancel_right h
    exact List.append_cancel_left hbody
  by_cases harg : arg = []
  · by_cases harg' : arg' = []
    · rw [harg, harg']
    · rw [if_pos harg, if_neg harg'] at hargs
      exact absurd hargs (by simp)
  · by_cases harg' : arg' = []
    · rw [if_neg harg, if_pos harg'] at hargs
      exact absurd hargs (by simp)
    · rw [if_neg harg, if_neg harg'] at hargs
      exact (List.cons.inj hargs).2

theorem articleNumber_line_injective {m n : UInt32}
    (h : (Operation.articleNumber m).line = (Operation.articleNumber n).line) : m = n :=
  ofUInt_injective (commandLine_injective h)

/-- An exchange adds one exchange to the history, and returns the status line of it. -/
theorem exchange_events {send : Action π Unit} {line : Bytes} {s t : NNTPClientSession π}
    {r : Except Exception (Int × Bytes)} (h : (exchange poco send line).Evals s r t) :
    ∃ answer, t.history = s.history ++ Exchange.events ⟨line, answer⟩ ∧
      t.activeGroup = s.activeGroup ∧
      ((∃ e, r = .error e ∧ ∀ code response, answer ≠ .status code response) ∨
        ∃ code response, r = .ok (code, response) ∧ answer = .status code response) := by
  rcases exchange_cases h with ⟨e, _, _, rfl, rfl⟩ | ⟨_, _, _, _, rfl⟩
  · exact ⟨.unsent, rfl, rfl, Or.inl ⟨e, rfl, by simp⟩⟩
  · cases r with
    | error e => exact ⟨.unanswered, rfl, rfl, Or.inl ⟨e, rfl, by simp⟩⟩
    | ok answer => exact ⟨.status answer.1 answer.2, rfl, rfl, Or.inr ⟨_, _, rfl, rfl⟩⟩

/-- **What a call of a command can do**: it throws over an exchange that failed, or goes on with the
    status line. -/
theorem run_cases {op : Operation} {s t : NNTPClientSession π} {x : Except Exception (Result α)}
    (h : (op.run poco).Evals s x t) :
    (∃ answer e, (∀ code response, answer ≠ .status code response) ∧ x = .error e ∧
      t.history = s.history ++ Exchange.events ⟨op.line, answer⟩) ∨
    (∃ code response s₁, (op.handle poco (code, response)).Evals s₁ x t ∧
      s₁.activeGroup = s.activeGroup ∧
      t.history = s.history ++ Exchange.events ⟨op.line, .status code response⟩) := by
  rw [Operation.run_eq] at h
  rcases evals_bind.mp h with ⟨e, hexchange, rfl⟩ | ⟨⟨code, response⟩, s₁, hexchange, hhandle⟩
  · obtain ⟨answer, hhistory, _, ⟨_, _, hanswer⟩ | ⟨_, _, hok, _⟩⟩ := exchange_events hexchange
    · exact Or.inl ⟨answer, e, hanswer, rfl, hhistory⟩
    · exact absurd hok (by simp)
  · obtain ⟨answer, hhistory, hgroup, ⟨_, herr, _⟩ | ⟨_, _, hok, rfl⟩⟩ := exchange_events hexchange
    · exact absurd herr (by simp)
    · obtain ⟨rfl, rfl⟩ := Prod.mk.inj (Except.ok.inj hok)
      refine Or.inr ⟨code, response, s₁, hhandle, hgroup, ?_⟩
      rw [handle_history hhandle, hhistory]

/-- **How `open()` ends** on a session that is not open: with a positive greeting read and the session
    open, or by an exception with nothing changed but the history. -/
theorem openSession_exits {s t : NNTPClientSession π} {x : Except Exception Unit}
    (hnew : s.m_isOpen = false) (h : (openSession poco).Evals s x t) :
    t.activeGroup = s.activeGroup ∧
      ((∃ code response, x = .ok () ∧ isPositiveCompletion code = true ∧ t.m_isOpen = true ∧
        t.history = s.history ++ [.status code response]) ∨
      (∃ e r, x = .error e ∧ t.m_isOpen = false ∧ t.history = s.history ++ statusEvent r ∧
        ∀ code response, r = .ok (code, response) → isPositiveCompletion code = false)) := by
  unfold openSession at h
  rw [evals_get_bind, hnew] at h
  simp only [Bool.not_false, if_true] at h
  rcases evals_bind.mp h with ⟨e, hreceive, rfl⟩ | ⟨⟨code, response⟩, s', hreceive, hrest⟩
  · obtain ⟨hr, rfl⟩ := evals_call.mp hreceive
    refine ⟨rfl, Or.inr ⟨e, .error e, rfl, hnew, ?_, by simp⟩⟩
    rw [hr]
    rfl
  · obtain ⟨hr, rfl⟩ := evals_call.mp hreceive
    have hevent : statusEvent (poco.receiveStatusMessage s.m_socket).1 = [.status code response] := by
      rw [← hr]
      rfl
    cases hcode : isPositiveCompletion code with
    | false =>
        simp only [hcode, Bool.not_false, if_true, evals_throw] at hrest
        obtain ⟨rfl, rfl⟩ := hrest
        refine ⟨rfl, Or.inr ⟨_, .ok (code, response), rfl, hnew, ?_, ?_⟩⟩
        · rw [hevent]
          rfl
        · intro code' response' heq
          obtain ⟨rfl, -⟩ := Prod.mk.inj (Except.ok.inj heq)
          exact hcode
    | true =>
        simp only [hcode, Bool.not_true, Bool.false_eq_true, if_false, evals_modify] at hrest
        obtain ⟨rfl, rfl⟩ := hrest
        refine ⟨rfl, Or.inl ⟨code, response, rfl, hcode, rfl, ?_⟩⟩
        rw [hevent]
        rfl

/-- The destructor ends, and lets no exception out. -/
theorem destroy_evals (poco : Poco π μ α) (s : NNTPClientSession π) :
    ∃ t, (destroy poco).Evals s (.ok ()) t := by
  have hquit : ∃ x t, (sendCommand poco (text "QUIT")).Evals s x t := by
    unfold sendCommand
    cases hsend : (poco.sendMessage (text "QUIT") s.m_socket).1 with
    | error e => exact ⟨_, _, Evals.bind_error (evals_call.mpr ⟨hsend.symm, rfl⟩)⟩
    | ok u => exact ⟨_, _, Evals.bind (evals_call.mpr ⟨hsend.symm, rfl⟩) (evals_call.mpr ⟨rfl, rfl⟩)⟩
  have hclose : ∃ x t, (closeSession poco).Evals s x t := by
    unfold closeSession
    simp only [evals_get_bind]
    cases s.m_isOpen with
    | false => exact ⟨_, _, evals_return () s⟩
    | true =>
        obtain ⟨x, t, heval⟩ := hquit
        cases x with
        | error e => exact ⟨_, _, heval.bind_error⟩
        | ok answer =>
            exact ⟨_, _, heval.bind (evals_modify_bind.mpr (evals_modify.mpr ⟨rfl, rfl⟩))⟩
  obtain ⟨x, t, heval⟩ := hclose
  exact ⟨t, (evals_attempt.mpr ⟨x, heval, rfl⟩).bind (evals_return () t)⟩

/-- On a session that is open it is one exchange more, -/
theorem destroy_quits {s t : NNTPClientSession π} {x : Except Exception Unit}
    (hopen : s.m_isOpen = true) (h : (destroy poco).Evals s x t) :
    ∃ answer, t.history = s.history ++ Exchange.events ⟨quitLine, answer⟩ := by
  obtain ⟨y, hclose⟩ := Call.run_closes (show Call.closes .destroy = true from rfl) h
  have hquits : ∀ {z s'}, (sendCommand poco (text "QUIT")).Evals s z s' →
      ∃ answer, s'.history = s.history ++ Exchange.events ⟨quitLine, answer⟩ := by
    intro z s' hquit
    rw [sendCommand_eq] at hquit
    obtain ⟨answer, hhistory, _⟩ := exchange_events hquit
    exact ⟨answer, hhistory⟩
  rcases closeSession_cases hclose with ⟨hnot, _⟩ | ⟨_, _, hquit⟩ | ⟨_, s', _, hquit, rfl⟩
  · exact absurd (hnot.symm.trans hopen) (by simp)
  · exact hquits hquit
  · obtain ⟨answer, hhistory⟩ := hquits hquit
    exact ⟨answer, hhistory⟩

/-- and else nothing. -/
theorem destroy_idle {s t : NNTPClientSession π} {x : Except Exception Unit}
    (hopen : s.m_isOpen = false) (h : (destroy poco).Evals s x t) : t = s := by
  obtain ⟨y, hclose⟩ := Call.run_closes (show Call.closes .destroy = true from rfl) h
  rcases closeSession_cases hclose with ⟨_, ht⟩ | ⟨_, hopen', _⟩ | ⟨_, _, hopen', _⟩
  · exact ht
  · exact absurd (hopen.symm.trans hopen') (by simp)
  · exact absurd (hopen.symm.trans hopen') (by simp)

/-! ## The members a command may touch -/

theorem handle_activeGroup {op : Operation} (hop : ∀ newsgroup, op ≠ .selectNewsGroup newsgroup)
    {answer : Int × Bytes} {s t : NNTPClientSession π} {x : Except Exception (Result α)}
    (h : (op.handle poco answer).Evals s x t) : t.activeGroup = s.activeGroup := by
  have hkept : KeptByReading poco
      fun s' : NNTPClientSession π => s'.activeGroup = s.activeGroup := by
    constructor
    · exact fun _ hs' => hs'
    · exact fun _ hs' => hs'
  exact hkept.handle_keeps hop answer s x t rfl h

/-- **Any other command leaves the group alone**, however it ends. -/
theorem run_activeGroup {op : Operation} (hop : ∀ newsgroup, op ≠ .selectNewsGroup newsgroup)
    {s t : NNTPClientSession π} {x : Except Exception (Result α)} (h : (op.run poco).Evals s x t) :
    t.activeGroup = s.activeGroup := by
  rw [Operation.run_eq] at h
  have hexchange : ∀ {r s₁}, (exchange poco (op.send poco) op.line).Evals s r s₁ →
      s₁.activeGroup = s.activeGroup := by
    intro r s₁ heval
    exact exchange_keeps (I := fun s' => s'.activeGroup = s.activeGroup)
      (fun _ hs' => hs') (fun _ hs' => hs') s r s₁ rfl heval
  rcases evals_bind.mp h with ⟨e, he, _⟩ | ⟨answer, s₁, hs₁, hhandle⟩
  · exact hexchange he
  · exact (handle_activeGroup hop hhandle).trans (hexchange hs₁)

/-- No command opens or closes the session. -/
theorem run_isOpen {op : Operation} {s t : NNTPClientSession π} {x : Except Exception (Result α)}
    (h : (op.run poco).Evals s x t) : t.m_isOpen = s.m_isOpen := by
  have hkept : KeptByReading poco fun s' : NNTPClientSession π => s'.m_isOpen = s.m_isOpen := by
    constructor
    · exact fun _ hs' => hs'
    · exact fun _ hs' => hs'
  have hundisturbed := hkept.undisturbed fun _ _ _ _ _ hs' => hs'
  rw [Operation.run_eq] at h
  have hexchange : Keeps (fun s' : NNTPClientSession π => s'.m_isOpen = s.m_isOpen)
      (exchange poco (op.send poco) op.line) :=
    exchange_keeps (fun _ hs' => hs') fun _ hs' => hs'
  exact (hexchange.bind fun answer => hundisturbed.handle_keeps op answer) s x t rfl h

/-! ## What a result says about the status line -/

/-- The numbers of a GROUP reply, read one after the other. -/
def groupReply (poco : Poco π μ α) (newsgroup reply : Bytes) : Except Exception ActiveNewsGroup := do
  let numArticles ← groupField poco reply 1
  let lowArticle ← groupField poco reply 2
  let highArticle ← groupField poco reply 3
  return ⟨newsgroup, numArticles, lowArticle, highArticle⟩

/-- What an accepted GROUP reply leaves in the members. -/
def assigned (poco : Poco π μ α) (newsgroup reply : Bytes) (g : ActiveNewsGroup) : ActiveNewsGroup :=
  match groupField poco reply 1 with
  | .error _ => { g with newsGroup := newsgroup }
  | .ok numArticles =>
    match groupField poco reply 2 with
    | .error _ => { g with newsGroup := newsgroup, numArticles := numArticles }
    | .ok lowArticle =>
      match groupField poco reply 3 with
      | .error _ => ⟨newsgroup, numArticles, lowArticle, g.highArticle⟩
      | .ok highArticle => ⟨newsgroup, numArticles, lowArticle, highArticle⟩

theorem groupOutcome_eq (poco : Poco π μ α) (newsgroup reply : Bytes) (s : NNTPClientSession π) :
    (groupOutcome poco newsgroup reply s).1 = groupReply poco newsgroup reply ∧
      (groupOutcome poco newsgroup reply s).2.activeGroup =
        assigned poco newsgroup reply s.activeGroup := by
  unfold groupOutcome groupReply assigned
  cases groupField poco reply 1 with
  | error e => exact ⟨rfl, rfl⟩
  | ok numArticles =>
      cases groupField poco reply 2 with
      | error e => exact ⟨rfl, rfl⟩
      | ok lowArticle =>
          cases groupField poco reply 3 with
          | error e => exact ⟨rfl, rfl⟩
          | ok highArticle => exact ⟨rfl, rfl⟩

/-- A group that is returned is what the members hold. -/
theorem assigned_of_groupReply {newsgroup reply : Bytes} {g : ActiveNewsGroup}
    (h : groupReply poco newsgroup reply = .ok g) (g₀ : ActiveNewsGroup) :
    assigned poco newsgroup reply g₀ = g := by
  unfold groupReply at h
  unfold assigned
  cases h1 : groupField poco reply 1 with
  | error e => simp [h1, bind, Except.bind] at h
  | ok numArticles =>
      cases h2 : groupField poco reply 2 with
      | error e => simp [h1, h2, bind, Except.bind] at h
      | ok lowArticle =>
          cases h3 : groupField poco reply 3 with
          | error e => simp [h1, h2, h3, bind, Except.bind] at h
          | ok highArticle =>
              rw [h1, h2, h3] at h
              exact Except.ok.inj h

/-- **A command that returns was accepted**, unless it is a STAT. -/
theorem accepted_of_handle {op : Operation} (hop : ∀ n, op ≠ .stat n) {code : Int} {response : Bytes}
    {s t : NNTPClientSession π} {x : Result α}
    (h : (op.handle poco (code, response)).Evals s (.ok x) t) : op.accepts code = true := by
  cases hcode : op.accepts code with
  | true => rfl
  | false =>
      -- a refused command throws
      have hrefused : ∃ e, (op.handle poco (code, response)).Evals s (.error e) s := by
        cases op with
        | capabilities => exact ⟨_, (blockTail_refused hcode _ response).map _⟩
        | listNewsGroups wildMat => exact ⟨_, (listTail_refused hcode response).map _⟩
        | selectNewsGroup newsgroup => exact ⟨_, (groupTail_refused hcode _ response).map _⟩
        | articleHeader => exact ⟨_, (blockTail_refused hcode _ response).map _⟩
        | articleRaw => exact ⟨_, (blockTail_refused hcode _ response).map _⟩
        | article => exact ⟨_, (articleBody_refused response hcode).map _⟩
        | articleNumber number => exact ⟨_, (articleBody_refused response hcode).map _⟩
        | stat n => exact absurd rfl (hop n)
      obtain ⟨e, he⟩ := hrefused
      exact absurd (h.unique he).1 (by simp)

/-- A STAT returns whether it was accepted, and never throws over a status line. -/
theorem handle_stat {n : UInt32} {code : Int} {response : Bytes} {s t : NNTPClientSession π}
    {x : Except Exception (Result α)} (h : ((Operation.stat n).handle poco (code, response)).Evals s x t) :
    x = .ok (.verdict (isPositiveCompletion code)) ∧ t = s :=
  h.unique ((statTail_evals code response).map Result.verdict)

/-- An accepted GROUP assigns the members, and returns the group its reply describes. -/
theorem handle_group {newsgroup : Bytes} {code : Int} {response : Bytes} {s t : NNTPClientSession π}
    {x : Except Exception (Result α)}
    (h : ((Operation.selectNewsGroup newsgroup).handle poco (code, response)).Evals s x t)
    (hcode : isPositiveCompletion code = true) :
    x = (groupReply poco newsgroup response).map .active ∧
      t.activeGroup = assigned poco newsgroup response s.activeGroup := by
  obtain ⟨houtcome, hmembers⟩ := groupOutcome_eq poco newsgroup response s
  obtain ⟨rfl, rfl⟩ := h.unique ((groupTail_accepted poco hcode newsgroup response).map Result.active)
  rw [houtcome]
  exact ⟨rfl, hmembers⟩

end NntpPoco
