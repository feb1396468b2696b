import NntpPoco.Session.Framing

/-!
# `Session.Lifecycle` — `open`, `close` and the destructor

A session is used by any number of `open()` and `close()` calls and destroyed once; every one of them
may end by an exception that its caller catches. `Life` is such a use, with a record of each call.
`openSession_cases` and `closeSession_cases` say once what a call can do; the law of the lifecycle
follows by induction over the calls (`lawful_of_life`), as long as the socket takes every QUIT and
answers it. If it throws instead, `m_isOpen` stays true, so the condition is exact (`lifecycle_iff`).
-/

namespace NntpPoco

open Lines Prog NNTPClientSession

variable {π μ α : Type} {poco : Poco π μ α}

/-! ## What a call can do -/

/-- The command line of `close()`. -/
def quitLine : Bytes := commandLine (text "QUIT") []

theorem openSession_cases {s t : NNTPClientSession π} {x : Except Exception Unit}
    (h : (openSession poco).Evals s x t) :
    (s.m_isOpen = true ∧ t = s) ∨
    (∃ r socket, s.m_isOpen = false ∧ poco.receiveStatusMessage s.m_socket = (r, socket) ∧
      t.m_socket = socket ∧ t.history = s.history ++ statusEvent r ∧
      (t.m_isOpen = true → ∃ status response, r = .ok (status, response) ∧
        isPositiveCompletion status = true)) := by
  unfold openSession at h
  rw [evals_get_bind] at h
  cases hopen : s.m_isOpen with
  | true =>
      left
      rw [hopen] at h
      exact ⟨rfl, (evals_pure.mp h).2⟩
  | false =>
      right
      rw [hopen] at h
      simp only [Bool.not_false, if_true] at h
      rcases evals_bind.mp h with ⟨e, hreceive, rfl⟩ | ⟨⟨status, response⟩, s', hreceive, hrest⟩
      · obtain ⟨hr, rfl⟩ := evals_call.mp hreceive
        refine ⟨.error e, _, rfl, Prod.ext hr.symm rfl, rfl, by rw [← hr]; rfl, ?_⟩
        exact fun ht => absurd (hopen.symm.trans ht) (by simp)
      · obtain ⟨hr, rfl⟩ := evals_call.mp hreceive
        refine ⟨.ok (status, response), _, rfl, Prod.ext hr.symm rfl, ?_⟩
        cases hstatus : isPositiveCompletion status with
        | false =>
            simp only [hstatus, Bool.not_false, if_true, evals_throw] at hrest
            rw [hrest.2, ← hr]
            exact ⟨rfl, rfl, fun ht => absurd (hopen.symm.trans ht) (by simp)⟩
        | true =>
            simp only [hstatus, Bool.not_true, Bool.false_eq_true, if_false,
              evals_modify] at hrest
            rw [hrest.2, ← hr]
            exact ⟨rfl, rfl, fun _ => ⟨status, response, rfl, hstatus⟩⟩

theorem closeSession_cases {s t : NNTPClientSession π} {x : Except Exception Unit}
    (h : (closeSession poco).Evals s x t) :
    (s.m_isOpen = false ∧ t = s) ∨
    (∃ e, s.m_isOpen = true ∧ (sendCommand poco (text "QUIT")).Evals s (.error e) t) ∨
    (∃ answer s', s.m_isOpen = true ∧ (sendCommand poco (text "QUIT")).Evals s (.ok answer) s' ∧
      t = { s' with m_socket := poco.close s'.m_socket, m_isOpen := false }) := by
  unfold closeSession at h
  rw [evals_get_bind] at h
  cases hopen : s.m_isOpen with
  | false =>
      left
      rw [hopen] at h
      exact ⟨rfl, (evals_pure.mp h).2⟩
  | true =>
      right
      rw [hopen] at h
      simp only [if_true] at h
      rcases evals_bind.mp h with ⟨e, hquit, _⟩ | ⟨answer, s', hquit, hrest⟩
      · exact Or.inl ⟨e, rfl, hquit⟩
      · right
        rw [evals_modify_bind, evals_modify] at hrest
        exact ⟨answer, s', rfl, hquit, hrest.2⟩

/-- A QUIT that the socket takes and answers. -/
theorem quit_evals {s : NNTPClientSession π} {sent socket : DialogSocket π} {answer : Int × Bytes}
    (hsend : poco.sendMessage (text "QUIT") s.m_socket = (.ok (), sent))
    (hreceive : poco.receiveStatusMessage sent = (.ok answer, socket)) :
    ∃ t, (sendCommand poco (text "QUIT")).Evals s (.ok answer) t :=
  ⟨_, (call_evals hsend).bind (call_evals hreceive)⟩

/-- An exchange does not touch `m_isOpen`. -/
theorem sendCommand_isOpen {command : Bytes} {s t : NNTPClientSession π}
    {r : Except Exception (Int × Bytes)} (h : (sendCommand poco command).Evals s r t) :
    t.m_isOpen = s.m_isOpen := by
  rw [sendCommand_eq] at h
  exact exchange_keeps (I := fun s' => s'.m_isOpen = s.m_isOpen)
    (fun _ hs' => hs') (fun _ hs' => hs') s r t rfl h

/-! ## The use of a session -/

/-- The calls of a session's life. -/
inductive Call
  | open
  | close
  | destroy
  deriving DecidableEq, Repr

/-- Whether the call is a `close()`, the one the destructor makes included. -/
def Call.closes : Call → Bool
  | .open => false
  | .close => true
  | .destroy => true

def Call.run (poco : Poco π μ α) : Call → Method π Unit
  | .open => openSession poco
  | .close => closeSession poco
  | .destroy => NNTPClientSession.destroy poco

/-- A call of the past: the session before it and after it. -/
structure CallRecord (π : Type) where
  call : Call
  before : NNTPClientSession π
  after : NNTPClientSession π

/-- A session on `socket` after the calls of the log. A session that has been destroyed is not used
    again. -/
inductive Life (poco : Poco π μ α) (socket : DialogSocket π) :
    List (CallRecord π) → NNTPClientSession π → Prop
  | created : Life poco socket [] (.ofSocket socket)
  | called {log s call x t} (hlife : Life poco socket log s) (halive : ∀ r ∈ log, r.call ≠ .destroy)
      (hcall : (call.run poco).Evals s x t) : Life poco socket (log ++ [⟨call, s, t⟩]) t

/-- A call that closes runs `close()`. -/
theorem Call.run_closes {call : Call} (hcloses : call.closes = true) {s t : NNTPClientSession π}
    {x : Except Exception Unit} (h : (call.run poco).Evals s x t) :
    ∃ y, (closeSession poco).Evals s y t := by
  cases call with
  | «open» => exact absurd hcloses (by simp [Call.closes])
  | close => exact ⟨x, h⟩
  | destroy =>
      have h : ((closeSession poco).attempt >>= fun _ => pure ()).Evals s x t := h
      rcases evals_bind.mp h with ⟨e, he, _⟩ | ⟨y, s', hattempt, hrest⟩
      · obtain ⟨y, _, herr⟩ := evals_attempt.mp he
        exact absurd herr (by simp)
      · obtain ⟨z, hz, _⟩ := evals_attempt.mp hattempt
        rw [(evals_pure.mp hrest).2]
        exact ⟨z, hz⟩

/-! ## The law -/

/-- The call is an `open()` that read a positive greeting. -/
def CallRecord.Greeted (r : CallRecord π) : Prop :=
  r.call = .open ∧ ∃ status response, isPositiveCompletion status = true ∧
    r.after.history = r.before.history ++ [.status status response]

/-- The call sent a QUIT. -/
def CallRecord.Quits (r : CallRecord π) : Prop :=
  ∃ events, r.after.history = r.before.history ++ events ∧ .sent quitLine ∈ events

/-- A positive greeting has been read, and no `close()` attempted since. -/
def GreetedSince (log : List (CallRecord π)) : Prop :=
  ∃ l₁ g l₂, log = l₁ ++ g :: l₂ ∧ g.Greeted ∧ ∀ r ∈ l₂, r.call = .open

/-- The law for the call `r` after the calls `log`. -/
structure CallLaw (log : List (CallRecord π)) (r : CallRecord π) : Prop where
  openGreeted : r.after.m_isOpen = true → GreetedSince (log ++ [r])
  greetsOnce : r.call = .open → r.before.m_isOpen = true → r.after = r.before
  quitsGreeted : r.Quits → ∃ g ∈ log, g.Greeted
  closed : r.call.closes = true → r.before.m_isOpen = true →
    r.after.m_socket.closed = true ∧ r.after.m_isOpen = false

/-- The law of the lifecycle: every call keeps it, and there is at most one QUIT. -/
structure LifecycleLaw (log : List (CallRecord π)) (t : NNTPClientSession π) : Prop where
  calls : ∀ l r, l ++ [r] <+: log → CallLaw l r
  oneQuit : t.history.count (.sent quitLine) ≤ 1

/-- At a `close()` that finds the session open, the socket takes the QUIT and gives a status line for
    it: neither throws. -/
def QuitReturns (poco : Poco π μ α) (r : CallRecord π) : Prop :=
  r.call.closes = true → r.before.m_isOpen = true →
    ∃ sent socket answer, poco.sendMessage (text "QUIT") r.before.m_socket = (.ok (), sent) ∧
      poco.receiveStatusMessage sent = (.ok answer, socket)

/-- What holds of a session between calls, as long as the law is kept. -/
structure Lawful (log : List (CallRecord π)) (s : NNTPClientSession π) : Prop where
  law : LifecycleLaw log s
  greeted : s.m_isOpen = true → GreetedSince log
  closed : s.history.count (.sent quitLine) ≠ 0 → s.m_socket.closed = true

theorem lifecycleLaw_snoc {log : List (CallRecord π)} {r : CallRecord π}
    {s t : NNTPClientSession π} (hlaw : LifecycleLaw log s) (hcall : CallLaw log r)
    (hquit : t.history.count (.sent quitLine) ≤ 1) : LifecycleLaw (log ++ [r]) t := by
  refine ⟨fun l r' hprefix => ?_, hquit⟩
  rcases List.prefix_concat_iff.mp hprefix with heq | hprefix
  · obtain ⟨rfl, hr⟩ := List.append_inj' heq rfl
    obtain rfl := List.singleton_inj.mp hr
    exact hcall
  · exact hlaw.calls l r' hprefix

/-! ### One call -/

section Step

variable {log : List (CallRecord π)} {s t : NNTPClientSession π}

theorem count_statusEvent (r : Except Exception (Int × Bytes)) :
    (statusEvent r).count (.sent quitLine) = 0 := by
  cases r <;> rfl

/-- A call that does nothing to the session. -/
theorem lawful_idle (hlawful : Lawful log s) {call : Call}
    (hidle : call.closes = true → s.m_isOpen = false) : Lawful (log ++ [⟨call, s, s⟩]) s := by
  have hgreeted : s.m_isOpen = true → GreetedSince (log ++ [⟨call, s, s⟩]) := by
    intro hopen
    obtain ⟨l₁, g, l₂, rfl, hg, hl₂⟩ := hlawful.greeted hopen
    refine ⟨l₁, g, l₂ ++ [⟨call, s, s⟩], by simp, hg, ?_⟩
    intro r hr
    rcases List.mem_append.mp hr with hr | hr
    · exact hl₂ r hr
    · rw [List.mem_singleton.mp hr]
      cases call with
      | «open» => rfl
      | close => exact absurd ((hidle rfl).symm.trans hopen) (by simp)
      | destroy => exact absurd ((hidle rfl).symm.trans hopen) (by simp)
  refine ⟨lifecycleLaw_snoc hlawful.law ?_ hlawful.law.oneQuit, hgreeted, hlawful.closed⟩
  constructor
  · exact hgreeted
  · exact fun _ _ => rfl
  · rintro ⟨events, hevents, hmem⟩
    rw [List.self_eq_append_right.mp hevents] at hmem
    exact absurd hmem List.not_mem_nil
  · exact fun hcloses hopen => absurd ((hidle hcloses).symm.trans hopen) (by simp)

/-- **`open()` keeps the law.** -/
theorem lawful_open (hcloses : poco.Closes) (hlawful : Lawful log s) {x : Except Exception Unit}
    (h : (openSession poco).Evals s x t) : Lawful (log ++ [⟨.open, s, t⟩]) t := by
  rcases openSession_cases h with ⟨_, rfl⟩ | ⟨r, socket, hnew, hreceive, hsocket, hhistory, hopens⟩
  · exact lawful_idle hlawful (by simp [Call.closes])
  · have hcount : t.history.count (.sent quitLine) = s.history.count (.sent quitLine) := by
      rw [hhistory, List.count_append, count_statusEvent, Nat.add_zero]
    have hgreeted : t.m_isOpen = true → GreetedSince (log ++ [⟨.open, s, t⟩]) := by
      intro hopen
      obtain ⟨status, response, rfl, hstatus⟩ := hopens hopen
      exact ⟨log, _, [], rfl, ⟨rfl, status, response, hstatus, hhistory⟩, by simp⟩
    -- reading a status line leaves the socket open or closed as it was, and sends no QUIT
    refine ⟨lifecycleLaw_snoc hlawful.law ?_ (hcount ▸ hlawful.law.oneQuit), hgreeted, ?_⟩
    · constructor
      · exact hgreeted
      · exact fun _ hopen => absurd (hnew.symm.trans hopen) (by simp)
      · rintro ⟨events, hevents, hmem⟩
        rw [show t.history = _ from hhistory, List.append_right_inj] at hevents
        exact absurd (List.count_pos_iff.mpr (hevents ▸ hmem)) (by rw [count_statusEvent]; omega)
      · exact fun hc _ => absurd hc (by simp [Call.closes])
    · intro hquit
      have hclosed := hcloses.receiveStatusMessage _ (hlawful.closed (hcount ▸ hquit))
      rwa [hreceive, ← hsocket] at hclosed

/-- **`close()` keeps the law**, if the socket takes and answers its QUIT. -/
theorem lawful_close (hcloses : poco.Closes) (hlawful : Lawful log s) {call : Call}
    (hcall : call.closes = true) {x : Except Exception Unit} (h : (closeSession poco).Evals s x t)
    (hquits : QuitReturns poco ⟨call, s, t⟩) : Lawful (log ++ [⟨call, s, t⟩]) t := by
  rcases closeSession_cases h with ⟨hnew, rfl⟩ | ⟨e, hopen, hquit⟩ | ⟨answer, s', hopen, hquit, ht⟩
  · exact lawful_idle hlawful fun _ => hnew
  -- it cannot have thrown: the socket takes this QUIT and answers it
  · obtain ⟨sent, socket, answer, hsend, hreceive⟩ := hquits hcall hopen
    obtain ⟨s', hreturns⟩ := quit_evals hsend hreceive
    exact absurd (hquit.unique hreturns).1 (by simp)
  · obtain ⟨g, hg, hgreeted⟩ : ∃ g ∈ log, g.Greeted := by
      obtain ⟨l₁, g, l₂, rfl, hg, _⟩ := hlawful.greeted hopen
      exact ⟨g, by simp, hg⟩
    -- the QUIT went out, so the socket was open, so no QUIT had gone out before
    have hcount : t.history.count (.sent quitLine) = 1 := by
      rw [sendCommand_eq] at hquit
      rcases exchange_cases hquit with ⟨_, _, _, herr, _⟩ | ⟨sent, socket, hsend, _, hs'⟩
      · exact absurd herr (by simp)
      · have hnone : s.history.count (.sent quitLine) = 0 := by
          by_contra hsome
          obtain ⟨e, herr⟩ := hcloses.sendMessage (text "QUIT") _ (hlawful.closed hsome)
          rw [herr] at hsend
          exact absurd (congrArg Prod.fst hsend) (by simp)
        rw [ht]
        show s'.history.count (.sent quitLine) = 1
        rw [hs']
        show (s.history ++ _).count (.sent quitLine) = 1
        rw [List.count_append, hnone, show commandLine (text "QUIT") [] = quitLine from rfl,
          List.count_cons_self, count_statusEvent]
    have hclosed : t.m_socket.closed = true ∧ t.m_isOpen = false := by
      rw [ht]
      exact ⟨hcloses.close _, rfl⟩
    have hnotOpen : ¬ t.m_isOpen = true := by simp [hclosed.2]
    refine ⟨lifecycleLaw_snoc hlawful.law ?_ (by omega), fun hopen' => absurd hopen' hnotOpen,
      fun _ => hclosed.1⟩
    constructor
    · exact fun hopen' => absurd hopen' hnotOpen
    · intro hopen'
      rw [show call = .open from hopen'] at hcall
      exact absurd hcall (by simp [Call.closes])
    · exact fun _ => ⟨g, hg, hgreeted⟩
    · exact fun _ _ => hclosed

end Step

/-! ### The whole life -/

/-- **The law holds over every life** in which the socket takes and answers every QUIT. -/
theorem lawful_of_life (hcloses : poco.Closes) {socket : DialogSocket π}
    {log : List (CallRecord π)} {t : NNTPClientSession π} (hlife : Life poco socket log t)
    (hquits : ∀ r ∈ log, QuitReturns poco r) : Lawful log t := by
  -- on the calls
  induction hlife with
  | created =>
      refine ⟨⟨fun l r h => ?_, by simp [ofSocket]⟩, by simp [ofSocket], by simp [ofSocket]⟩
      exact absurd (List.prefix_nil.mp h) (by simp)
  | @called log s call x t hlife halive hcall ih =>
      have hlawful := ih fun r hr => hquits r (List.mem_append_left _ hr)
      have hreturns : QuitReturns poco ⟨call, s, t⟩ := hquits _ (by simp)
      cases call with
      | «open» => exact lawful_open hcloses hlawful hcall
      | close => exact lawful_close hcloses hlawful rfl hcall hreturns
      | destroy =>
          obtain ⟨y, hclose⟩ := Call.run_closes rfl hcall
          exact lawful_close hcloses hlawful rfl hclose hreturns

/-- A `close()` whose QUIT is not taken or not answered leaves the session open. -/
theorem quitReturns_of_callLaw {log : List (CallRecord π)} {call : Call}
    {s t : NNTPClientSession π} {x : Except Exception Unit} (hcall : (call.run poco).Evals s x t)
    (hlaw : CallLaw log ⟨call, s, t⟩) : QuitReturns poco ⟨call, s, t⟩ := by
  intro hcloses hopen
  obtain ⟨y, hclose⟩ := Call.run_closes hcloses hcall
  rcases closeSession_cases hclose with ⟨hnew, _⟩ | ⟨e, _, hquit⟩ | ⟨answer, s', _, hquit, _⟩
  · exact absurd (hnew.symm.trans hopen) (by simp)
  · have hclosed : t.m_isOpen = false := (hlaw.closed hcloses hopen).2
    rw [sendCommand_isOpen hquit] at hclosed
    exact absurd (hclosed.symm.trans hopen) (by simp)
  · rw [sendCommand_eq] at hquit
    rcases exchange_cases hquit with ⟨_, _, _, herr, _⟩ | ⟨sent, socket, hsend, hreceive, _⟩
    · exact absurd herr (by simp)
    · exact ⟨sent, socket, answer, hsend, hreceive⟩

/-- **The lifecycle.** Over every life of a session, whatever the socket does, the law is kept if and
    only if the socket takes and answers the QUIT of every `close()` that finds the session open, the
    destructor's included. -/
theorem lifecycle_iff (hcloses : poco.Closes) {socket : DialogSocket π} {log : List (CallRecord π)}
    {t : NNTPClientSession π} (hlife : Life poco socket log t) :
    LifecycleLaw log t ↔ ∀ r ∈ log, QuitReturns poco r := by
  constructor
  · intro hlaw
    have hcalls := hlaw.calls
    clear hlaw
    -- the law of each call is all that is needed, and it passes to the calls before it
    induction hlife with
    | created => exact fun r hr => absurd hr List.not_mem_nil
    | @called log s call x t hlife halive hcall ih =>
        intro r hr
        rcases List.mem_append.mp hr with hr | hr
        · exact ih (fun l r' h => hcalls l r' (h.trans (List.prefix_append _ _))) r hr
        · rw [List.mem_singleton.mp hr]
          exact quitReturns_of_callLaw hcall (hcalls log _ (List.prefix_refl _))
  · exact fun hquits => (lawful_of_life hcloses hlife hquits).law

/-- The session closed by a server that answers QUIT. -/
def closedSession : NNTPClientSession ℕ :=
  { openedSession with
    m_socket := ⟨[], true, quitLine, true, 1⟩
    m_isOpen := false
    history := openedSession.history ++ [.sent quitLine, .status 205 (text "205 bye")] }

theorem lifecycle_iff_answered :
    let poco := Poco.reference (Server.saying (text "205 bye\r\n") true) Reference.readAll id
    let log := [⟨.open, .ofSocket greetedSession.m_socket, openedSession⟩,
      ⟨.close, openedSession, closedSession⟩, ⟨.destroy, closedSession, closedSession⟩]
    Life poco greetedSession.m_socket log closedSession ∧
      (LifecycleLaw log closedSession ↔ ∀ r ∈ log, QuitReturns poco r) := by
  intro poco log
  have hopen : (Call.open.run poco).Evals (.ofSocket greetedSession.m_socket) (.ok ())
      openedSession := .of_run 1 rfl
  have hclose : (Call.close.run poco).Evals openedSession (.ok ()) closedSession := .of_run 1 rfl
  have hdestroy : (Call.destroy.run poco).Evals closedSession (.ok ()) closedSession :=
    .of_run 1 rfl
  have hlife : Life poco greetedSession.m_socket log closedSession :=
    .called (.called (.called .created (by simp) hopen) (by simp) hclose) (by simp) hdestroy
  exact ⟨hlife, lifecycle_iff Reference.closes hlife⟩

/-- The session opened on a server that does not answer QUIT, after some of them. -/
def unansweredSession (quits : ℕ) : NNTPClientSession ℕ :=
  { openedSession with
    m_socket := ⟨[], false, (List.replicate quits quitLine).flatten, false, quits⟩
    history := openedSession.history ++
      (List.replicate quits [.sent quitLine, .statusFailed]).flatten }

/-- The server does not answer QUIT: `close()` throws with the session still open, and the destructor
    sends a second QUIT. -/
theorem quit_sent_twice :
    let poco := Poco.reference (Server.saying [] false) Reference.readAll id
    let log := [⟨.open, .ofSocket greetedSession.m_socket, unansweredSession 0⟩,
      ⟨.close, unansweredSession 0, unansweredSession 1⟩,
      ⟨.destroy, unansweredSession 1, unansweredSession 2⟩]
    Life poco greetedSession.m_socket log (unansweredSession 2) ∧
      (unansweredSession 2).history.count (.sent quitLine) = 2 ∧
      ¬ LifecycleLaw log (unansweredSession 2) := by
  intro poco log
  have hopen : (Call.open.run poco).Evals (.ofSocket greetedSession.m_socket) (.ok ())
      (unansweredSession 0) := .of_run 1 rfl
  have hclose : (Call.close.run poco).Evals (unansweredSession 0) (.error (.net 2))
      (unansweredSession 1) := .of_run 1 rfl
  have hdestroy : (Call.destroy.run poco).Evals (unansweredSession 1) (.ok ())
      (unansweredSession 2) := .of_run 1 rfl
  refine ⟨?_, by decide, fun hlaw => absurd hlaw.oneQuit (by decide)⟩
  exact .called (.called (.called .created (by simp) hopen) (by simp) hclose) (by simp) hdestroy

end NntpPoco
