import NntpPoco.Lib.Lts
import NntpPoco.Session.Outcome

/-!
# `Session.Usage` — a session used in any way

The member functions of a session may be called in any order, with any arguments, and go on being called
after they have thrown. `Called` is one such call and a run of it any use of a session. What a call does
to the history is one of five things (`called_traces`), and the history is what has been written
(`Faithful`), so the bytes on the connection are the command lines of the calls (`uses_on_wire`). Behind
a `close()` that has returned there are none (`closed_for_good`).
-/

namespace NntpPoco

open Lines Prog NNTPClientSession

variable {π μ α β : Type} {poco : Poco π μ α}

/-! ## Calls -/

/-- A call on a session: one of its life, or a command. -/
inductive Use
  | life (call : Call)
  | command (op : Operation)
  deriving DecidableEq, Repr

/-- The command line that the call may send. -/
def Use.line : Use → Bytes
  | .life .open => []
  | .life .close => quitLine
  | .life .destroy => quitLine
  | .command op => op.line

/-- The exception that leaves a call, if one does. -/
def thrown : Except Exception β → Option Exception
  | .ok _ => none
  | .error e => some e

/-- One call, and the exception that its caller has caught. -/
def Called (poco : Poco π μ α) (s : NNTPClientSession π) (c : Use × Option Exception)
    (t : NNTPClientSession π) : Prop :=
  match c.1 with
  | .life call => ∃ x, (call.run poco).Evals s x t ∧ thrown x = c.2
  | .command op => ∃ x, (op.run poco).Evals s x t ∧ thrown x = c.2

/-! ## What a call leaves in the history -/

/-- The events of one call. -/
inductive Traces : Use × Option Exception → List Event → Prop
  | returned {op code response} :
      Traces (.command op, none) (Exchange.events ⟨op.line, .status code response⟩)
  | threw {op e answer} : Traces (.command op, some e) (Exchange.events ⟨op.line, answer⟩)
  | greeting {o r} : Traces (.life .open, o) (statusEvent r)
  | quit {call o answer} (hcloses : call.closes = true) :
      Traces (.life call, o) (Exchange.events ⟨quitLine, answer⟩)
  | idle {call o} : Traces (.life call, o) []

theorem quit_events {s t : NNTPClientSession π} {r : Except Exception (Int × Bytes)}
    (h : (sendCommand poco (text "QUIT")).Evals s r t) :
    ∃ answer, t.history = s.history ++ Exchange.events ⟨quitLine, answer⟩ := by
  rw [sendCommand_eq] at h
  obtain ⟨answer, hhistory, _⟩ := exchange_events h
  exact ⟨answer, hhistory⟩

/-- **What a call can do** to the history. -/
theorem called_traces {s t : NNTPClientSession π} {c : Use × Option Exception}
    (h : Called poco s c t) : ∃ events, Traces c events ∧ t.history = s.history ++ events := by
  obtain ⟨use, o⟩ := c
  cases use with
  | command op =>
      obtain ⟨x, heval, rfl⟩ := h
      cases x with
      | ok r =>
          obtain ⟨code, response, _, _, hhistory⟩ := run_returns heval
          exact ⟨_, .returned, hhistory⟩
      | error e =>
          rcases run_cases heval with ⟨answer, _, _, _, hhistory⟩ | ⟨_, _, _, _, _, hhistory⟩
          · exact ⟨_, .threw, hhistory⟩
          · exact ⟨_, .threw, hhistory⟩
  | life call =>
      obtain ⟨x, heval, rfl⟩ := h
      cases hcloses : call.closes with
      | true =>
          obtain ⟨y, hclose⟩ := Call.run_closes hcloses heval
          rcases closeSession_cases hclose with ⟨_, rfl⟩ | ⟨_, _, hquit⟩ | ⟨_, s', _, hquit, rfl⟩
          · exact ⟨[], .idle, (List.append_nil _).symm⟩
          · obtain ⟨answer, hhistory⟩ := quit_events hquit
            exact ⟨_, .quit hcloses, hhistory⟩
          · obtain ⟨answer, hhistory⟩ := quit_events hquit
            exact ⟨_, .quit hcloses, hhistory⟩
      | false =>
          cases call with
          | «open» =>
              rcases openSession_cases heval with ⟨_, rfl⟩ | ⟨r, _, _, _, _, hhistory, _⟩
              · exact ⟨[], .idle, (List.append_nil _).symm⟩
              · exact ⟨_, .greeting, hhistory⟩
          | close => exact absurd hcloses (by simp [Call.closes])
          | destroy => exact absurd hcloses (by simp [Call.closes])

/-! ## The bytes of a history -/

def sentLine : Event → Bytes
  | .sent line => line
  | _ => []

/-- What has gone out, according to the history. -/
def sentBytes (history : List Event) : Bytes := history.flatMap sentLine

@[simp] theorem sentBytes_nil : sentBytes [] = [] := rfl

@[simp] theorem sentBytes_append (history events : List Event) :
    sentBytes (history ++ events) = sentBytes history ++ sentBytes events := List.flatMap_append

theorem sentBytes_statusEvent (r : Except Exception (Int × Bytes)) :
    sentBytes (statusEvent r) = [] := by
  cases r <;> rfl

/-- A call puts its command line on the connection, or nothing; a command that returns has put it. -/
structure Puts (c : Use × Option Exception) (bytes : Bytes) : Prop where
  line : bytes = [] ∨ bytes = c.1.line
  returned : ∀ op, c = (.command op, none) → bytes = op.line

theorem exchange_sentBytes (line : Bytes) (answer : Answer) :
    sentBytes (Exchange.events ⟨line, answer⟩) = [] ∨
      sentBytes (Exchange.events ⟨line, answer⟩) = line := by
  cases answer with
  | unsent => exact Or.inl rfl
  | unanswered => exact Or.inr (List.append_nil line)
  | status code response => exact Or.inr (List.append_nil line)

theorem Traces.puts {c : Use × Option Exception} {events : List Event} (h : Traces c events) :
    Puts c (sentBytes events) := by
  cases h with
  | @returned op code response =>
      have hline : sentBytes (Exchange.events ⟨op.line, .status code response⟩) = op.line :=
        List.append_nil op.line
      refine ⟨Or.inr hline, fun op' h => ?_⟩
      rw [hline, Use.command.inj (Prod.mk.inj h).1]
  | @threw op e answer => exact ⟨exchange_sentBytes op.line answer, fun _ h => absurd h (by simp)⟩
  | greeting => exact ⟨Or.inl (sentBytes_statusEvent _), fun _ h => absurd h (by simp)⟩
  | @quit call o answer hcloses =>
      refine ⟨?_, fun _ h => absurd h (by simp)⟩
      cases call with
      | «open» => exact absurd hcloses (by simp [Call.closes])
      | close => exact exchange_sentBytes quitLine answer
      | destroy => exact exchange_sentBytes quitLine answer
  | idle => exact ⟨Or.inl rfl, fun _ h => absurd h (by simp)⟩

/-! ## The history is what has been written -/

/-- What has been written since `s₀` is what the history says. -/
def Faithful (s₀ s : NNTPClientSession π) : Prop :=
  ∃ events, s.history = s₀.history ++ events ∧
    s.m_socket.written = s₀.m_socket.written ++ sentBytes events

theorem Faithful.refl (s : NNTPClientSession π) : Faithful s s :=
  ⟨[], (List.append_nil _).symm, (List.append_nil _).symm⟩

/-- From a connection, the history is all that has been written. -/
theorem Faithful.of_socket {socket : DialogSocket π} {s : NNTPClientSession π}
    (h : Faithful (.ofSocket socket) s) : s.m_socket.written = socket.written ++ sentBytes s.history := by
  obtain ⟨events, hhistory, hwritten⟩ := h
  have hevents : s.history = events := hhistory.trans (List.nil_append events)
  rw [hwritten, hevents]
  rfl

/-- A call on the socket. -/
theorem Faithful.after {s₀ s : NNTPClientSession π} (h : Faithful s₀ s) {socket : DialogSocket π}
    {events : List Event} (hwritten : socket.written = s.m_socket.written ++ sentBytes events) :
    Faithful s₀ (s.after socket events) := by
  obtain ⟨before, hhistory, hbefore⟩ := h
  refine ⟨before ++ events, ?_, ?_⟩
  · show s.history ++ events = _
    rw [hhistory, List.append_assoc]
  · show socket.written = _
    rw [hwritten, hbefore, sentBytes_append, List.append_assoc]

/-- What the member functions of a session keep, whichever way they end. -/
structure KeptByCalls (poco : Poco π μ α) (J : NNTPClientSession π → Prop) : Prop where
  openSession : Keeps J (openSession poco)
  closeSession : Keeps J (closeSession poco)
  command : ∀ op : Operation, Keeps J (op.run poco)

theorem KeptByCalls.destroy {J : NNTPClientSession π → Prop} (h : KeptByCalls poco J) :
    Keeps J (destroy poco) := h.closeSession.attempt.bind fun _ => keeps_pure _

/-- The member function of a command. -/
theorem KeptByCalls.member {J : NNTPClientSession π → Prop} (h : KeptByCalls poco J)
    {p : Method π β} {f : β → Result α} {op : Operation} (hop : op.run poco = f <$> p) : Keeps J p := by
  intro s x t hs heval
  have hrun : (op.run poco).Evals s (x.map f) t := by
    rw [hop]
    exact heval.map f
  exact h.command op s _ t hs hrun

theorem KeptByCalls.called {J : NNTPClientSession π → Prop} (h : KeptByCalls poco J)
    {s t : NNTPClientSession π} {c : Use × Option Exception} (hs : J s) (hcall : Called poco s c t) :
    J t := by
  obtain ⟨use, o⟩ := c
  cases use with
  | command op =>
      obtain ⟨x, heval, _⟩ := hcall
      exact h.command op s x t hs heval
  | life call =>
      obtain ⟨x, heval, _⟩ := hcall
      cases call with
      | «open» => exact h.openSession s x t hs heval
      | close => exact h.closeSession s x t hs heval
      | destroy => exact h.destroy s x t hs heval

section Faithful

variable {s₀ : NNTPClientSession π} (hlines : poco.WritesLines)
include hlines

/-- A line goes out, or an exception says that it did not. -/
theorem send_verbatim (op : Operation) (s : DialogSocket π) :
    (∃ e, (op.send poco s).1 = .error e ∧ (op.send poco s).2.written = s.written) ∨
      ((op.send poco s).1 = .ok () ∧ (op.send poco s).2.written = s.written ++ op.line) := by
  cases op with
  | capabilities => exact hlines.sendMessage _ s
  | listNewsGroups wildMat => exact hlines.sendMessageArg _ _ s
  | selectNewsGroup newsgroup => exact hlines.sendMessageArg _ _ s
  | articleHeader => exact hlines.sendMessage _ s
  | articleRaw => exact hlines.sendMessage _ s
  | article => exact hlines.sendMessage _ s
  | articleNumber number => exact hlines.sendMessageArg _ _ s
  | stat n => exact hlines.sendMessageArg _ _ s

theorem Faithful.receive {s : NNTPClientSession π} (h : Faithful s₀ s) :
    Faithful s₀ (s.after (poco.receiveStatusMessage s.m_socket).2
      (statusEvent (poco.receiveStatusMessage s.m_socket).1)) := by
  apply h.after
  rw [hlines.receiveStatusMessage, sentBytes_statusEvent, List.append_nil]

theorem faithful_exchange {send : Action π Unit} {line : Bytes}
    (hsend : ∀ s : DialogSocket π,
      (∃ e, (send s).1 = .error e ∧ (send s).2.written = s.written) ∨
        ((send s).1 = .ok () ∧ (send s).2.written = s.written ++ line)) :
    Keeps (Faithful s₀) (exchange poco send line) := by
  refine exchange_keeps (fun s hs => hs.after ?_) fun s hs => hs.receive hlines
  rcases hsend s.m_socket with ⟨e, he, hwritten⟩ | ⟨hok, hwritten⟩
  · rw [he, hwritten]
    exact (List.append_nil _).symm
  · rw [hok, hwritten]
    exact congrArg _ (List.append_nil line).symm

/-- **Every call keeps the history faithful.** -/
theorem faithful_calls : KeptByCalls poco (Faithful s₀) where
  openSession := by
    have hreceive : Keeps (Faithful s₀) (call poco.receiveStatusMessage statusEvent) :=
      keeps_lift fun s hs => hs.receive hlines
    unfold openSession
    refine keeps_get.bind fun s => Keeps.ite ?_ (keeps_pure _)
    refine hreceive.bind fun answer => ?_
    exact Keeps.ite (keeps_throw _) (keeps_modify fun _ hs => hs)
  closeSession := by
    have hquit : Keeps (Faithful s₀) (sendCommand poco (text "QUIT")) := by
      rw [sendCommand_eq]
      exact faithful_exchange hlines (hlines.sendMessage (text "QUIT"))
    have hclose : Keeps (Faithful s₀)
        (Prog.modify fun s => { s with m_socket := poco.close s.m_socket } : Method π Unit) := by
      refine keeps_modify fun s hs => ?_
      obtain ⟨events, hhistory, hwritten⟩ := hs
      exact ⟨events, hhistory, (hlines.close s.m_socket).trans hwritten⟩
    unfold closeSession
    refine keeps_get.bind fun s => Keeps.ite ?_ (keeps_pure _)
    exact hquit.bind fun _ => hclose.bind fun _ => keeps_modify fun _ hs => hs
  command op := by
    have hkept : KeptByReading poco (Faithful s₀) := by
      constructor
      · intro s hs
        apply hs.after
        rw [hlines.receiveMessage, sentBytes_nil, List.append_nil]
      · intro s hs
        apply hs.after
        rw [hlines.get, sentBytes_nil, List.append_nil]
    have hundisturbed := hkept.undisturbed fun _ _ _ _ _ hs => hs
    rw [Operation.run_eq]
    exact (faithful_exchange hlines (send_verbatim hlines op)).bind
      fun answer => hundisturbed.handle_keeps op answer

end Faithful

/-! ## Whole uses -/

/-- What any use of a session leaves behind, from `s` to `t`: each call its events in the history, and at
    most its command line on the connection, in the order of the calls. -/
structure Wired (s : NNTPClientSession π) (uses : List (Use × Option Exception))
    (parts : List (List Event)) (t : NNTPClientSession π) : Prop where
  traces : List.Forall₂ Traces uses parts
  history : t.history = s.history ++ parts.flatten
  puts : List.Forall₂ Puts uses (parts.map sentBytes)
  written : t.m_socket.written = s.m_socket.written ++ (parts.map sentBytes).flatten

/-- **What goes over the connection**, however a session is used: the command lines of the calls, in
    their order, each at most once and verbatim, and that of every command that has returned. -/
theorem uses_on_wire (hlines : poco.WritesLines) {s t : NNTPClientSession π}
    {uses : List (Use × Option Exception)} (h : Lts.Runs (Called poco) s uses t) :
    ∃ parts, Wired s uses parts t := by
  induction h with
  | nil => exact ⟨[], .nil, (List.append_nil _).symm, .nil, (List.append_nil _).symm⟩
  | @cons s s' t c uses hcall hrest ih =>
      obtain ⟨events, htraces, hhistory⟩ := called_traces hcall
      obtain ⟨parts, hparts⟩ := ih
      -- the bytes of one call, from the history before it and after it
      have hwritten : s'.m_socket.written = s.m_socket.written ++ sentBytes events := by
        obtain ⟨events', hhistory', hwritten⟩ := (faithful_calls hlines).called (.refl s) hcall
        rw [hhistory] at hhistory'
        rw [hwritten, List.append_cancel_left hhistory']
      refine ⟨events :: parts, .cons htraces hparts.traces, ?_, .cons htraces.puts hparts.puts, ?_⟩
      · rw [hparts.history, hhistory, List.flatten_cons, List.append_assoc]
      · rw [hparts.written, hwritten, List.map_cons, List.flatten_cons, List.append_assoc]

/-- A session opened, used, and closed twice. -/
theorem uses_on_wire_accepting :
    let poco := Poco.reference (Server.accepting []) Reference.readAll (id : Bytes → Bytes)
    let uses : List (Use × Option Exception) := [(.life .open, none),
      (.command (.selectNewsGroup (text "g")), none), (.life .close, none), (.life .close, none)]
    ∃ t parts, Lts.Runs (Called poco) greetedSession uses t ∧ Wired greetedSession uses parts t ∧
      t.m_socket.written = text "GROUP g\r\nQUIT\r\n" := by
  intro poco uses
  have hrun : ∃ t, Lts.Runs (Called poco) greetedSession uses t ∧
      t.m_socket.written = text "GROUP g\r\nQUIT\r\n" :=
    ⟨_, .cons ⟨.ok (), .of_run 1 rfl, rfl⟩ (.cons ⟨.ok _, .of_run 1 rfl, rfl⟩
      (.cons ⟨.ok (), .of_run 1 rfl, rfl⟩ (.cons ⟨.ok (), .of_run 1 rfl, rfl⟩ .nil))), rfl⟩
  obtain ⟨t, huses, hwritten⟩ := hrun
  obtain ⟨parts, hwired⟩ := uses_on_wire Reference.writesLines huses
  exact ⟨t, parts, huses, hwired, hwritten⟩

/-! ## Behind `close()` -/

section Closed

variable {s t : NNTPClientSession π}

/-- An exchange whose line does not go out is over. -/
theorem exchange_closed {send : Action π Unit} {line : Bytes} {e : Exception}
    {r : Except Exception (Int × Bytes)} (hsend : send s.m_socket = (.error e, s.m_socket))
    (h : (exchange poco send line).Evals s r t) :
    r = .error e ∧ t.m_socket = s.m_socket := by
  have hcall : (call send (sentEvent line)).Evals s (.error e)
      (s.after s.m_socket [.sendFailed line]) := call_evals hsend
  obtain ⟨rfl, rfl⟩ := h.unique hcall.bind_error
  exact ⟨rfl, rfl⟩

/-- A `close()` that returns has closed the socket, if the session was open. -/
theorem closeSession_closes (hgood : poco.ClosedForGood) (hopen : s.m_isOpen = true)
    (h : (closeSession poco).Evals s (.ok ()) t) : t.m_socket.closed = true := by
  unfold closeSession at h
  rw [evals_get_bind, hopen, if_pos rfl] at h
  obtain ⟨_, s', _, hrest⟩ := evals_bind_ok.mp h
  rw [evals_modify_bind] at hrest
  obtain ⟨_, rfl⟩ := evals_modify.mp hrest
  exact hgood.close s'.m_socket

variable (hgood : poco.ClosedForGood)
include hgood

theorem send_closed (op : Operation) {socket : DialogSocket π} (hclosed : socket.closed = true) :
    ∃ e, op.send poco socket = (.error e, socket) := by
  cases op with
  | capabilities => exact hgood.sendMessage _ _ hclosed
  | listNewsGroups wildMat => exact hgood.sendMessageArg _ _ _ hclosed
  | selectNewsGroup newsgroup => exact hgood.sendMessageArg _ _ _ hclosed
  | articleHeader => exact hgood.sendMessage _ _ hclosed
  | articleRaw => exact hgood.sendMessage _ _ hclosed
  | article => exact hgood.sendMessage _ _ hclosed
  | articleNumber number => exact hgood.sendMessageArg _ _ _ hclosed
  | stat n => exact hgood.sendMessageArg _ _ _ hclosed

/-- **A call on a closed socket** sends nothing, and a command throws. -/
theorem called_closed (hlines : poco.WritesLines) (hclosed : s.m_socket.closed = true)
    {c : Use × Option Exception} (h : Called poco s c t) :
    t.m_socket.closed = true ∧ t.m_socket.written = s.m_socket.written ∧
      ∀ op, c.1 = .command op → ∃ e, c.2 = some e := by
  have hsame : t.m_socket = s.m_socket →
      t.m_socket.closed = true ∧ t.m_socket.written = s.m_socket.written := by
    intro hsocket
    rw [hsocket]
    exact ⟨hclosed, rfl⟩
  obtain ⟨use, o⟩ := c
  cases use with
  | command op =>
      obtain ⟨x, heval, rfl⟩ := h
      obtain ⟨e, hsend⟩ := send_closed hgood op hclosed
      rw [Operation.run_eq] at heval
      rcases evals_bind.mp heval with ⟨e', hexchange, rfl⟩ | ⟨_, _, hexchange, _⟩
      · obtain ⟨hok, hwritten⟩ := hsame (exchange_closed hsend hexchange).2
        exact ⟨hok, hwritten, fun _ _ => ⟨e', rfl⟩⟩
      · exact absurd (exchange_closed hsend hexchange).1 (by simp)
  | life call =>
      obtain ⟨x, heval, rfl⟩ := h
      refine (?_ : _ ∧ _).imp_right fun hwritten => ⟨hwritten, fun _ h => absurd h (by simp)⟩
      cases hcloses : call.closes with
      | true =>
          obtain ⟨e, hsend⟩ := hgood.sendMessage (text "QUIT") s.m_socket hclosed
          obtain ⟨y, hclose⟩ := Call.run_closes hcloses heval
          rcases closeSession_cases hclose with ⟨_, rfl⟩ | ⟨_, _, hquit⟩ | ⟨_, _, _, hquit, _⟩
          · exact hsame rfl
          · rw [sendCommand_eq] at hquit
            exact hsame (exchange_closed hsend hquit).2
          · rw [sendCommand_eq] at hquit
            exact absurd (exchange_closed hsend hquit).1 (by simp)
      | false =>
          cases call with
          | «open» =>
              rcases openSession_cases heval with ⟨_, rfl⟩ | ⟨r, socket, _, hreceive, hsocket, _⟩
              · exact hsame rfl
              · obtain rfl : socket = (poco.receiveStatusMessage s.m_socket).2 := by rw [hreceive]
                rw [hsocket]
                exact ⟨hgood.receiveStatusMessage _ hclosed, hlines.receiveStatusMessage _⟩
          | close => exact absurd hcloses (by simp [Call.closes])
          | destroy => exact absurd hcloses (by simp [Call.closes])

/-- **Closed for good.** Behind a `close()` that has returned, whatever is called on the session and
    however often, `open()` and `close()` included: nothing more goes over the connection, and every
    command throws. -/
theorem closed_for_good (hlines : poco.WritesLines) {s₀ : NNTPClientSession π}
    (hopen : s₀.m_isOpen = true) (hclose : (closeSession poco).Evals s₀ (.ok ()) s)
    {uses : List (Use × Option Exception)} (h : Lts.Runs (Called poco) s uses t) :
    t.m_socket.closed = true ∧ t.m_socket.written = s.m_socket.written ∧
      ∀ c ∈ uses, ∀ op, c.1 = .command op → ∃ e, c.2 = some e := by
  have hclosed : s.m_socket.closed = true := closeSession_closes hgood hopen hclose
  clear hclose
  induction h with
  | nil => exact ⟨hclosed, rfl, fun _ h => absurd h List.not_mem_nil⟩
  | @cons s s' t c uses hcall hrest ih =>
      obtain ⟨hclosed', hwritten', hthrows⟩ := called_closed hgood hlines hclosed hcall
      obtain ⟨ht, hwritten, huses⟩ := ih hclosed'
      exact ⟨ht, hwritten.trans hwritten', List.forall_mem_cons.mpr ⟨hthrows, huses⟩⟩

end Closed

/-- A session that is opened again behind its `close()`, and used. -/
theorem closed_for_good_saying :
    let server := Server.saying (text "205 bye\r\n") false
    let poco := Poco.reference server Reference.readAll (id : Bytes → Bytes)
    let uses : List (Use × Option Exception) := [(.life .open, some (.net 2)),
      (.command (.stat 5), some (.net 1)), (.life .destroy, none)]
    ∃ s t, (closeSession poco).Evals openedSession (.ok ()) s ∧ Lts.Runs (Called poco) s uses t ∧
      t.m_socket.closed = true ∧ t.m_socket.written = s.m_socket.written ∧
      ∀ c ∈ uses, ∀ op, c.1 = .command op → ∃ e, c.2 = some e := by
  intro server poco uses
  have hrun : ∃ s t, (closeSession poco).Evals openedSession (.ok ()) s ∧
      Lts.Runs (Called poco) s uses t :=
    ⟨_, _, .of_run 1 rfl, .cons ⟨.error (.net 2), .of_run 1 rfl, rfl⟩
      (.cons ⟨.error (.net 1), .of_run 1 rfl, rfl⟩ (.cons ⟨.ok (), .of_run 1 rfl, rfl⟩ .nil))⟩
  obtain ⟨s, t, hclose, huses⟩ := hrun
  exact ⟨s, t, hclose, huses,
    closed_for_good Reference.closedForGood Reference.writesLines rfl hclose huses⟩

end NntpPoco
