import NntpPoco.Session.Dialogue

/-!
# `Session.Lag` — a session that is behind

Nothing in a reply says which command it answers, and no command looks at `m_isOpen`. So a session with a
reply left over, such as the greeting that `open()` would have taken, goes on: every command takes the
first line of the queue and puts its own reply behind it (`command_lags`). `leftover_replies` is what that
comes to over a whole run of single-line commands, by induction on the commands: the queue never gets
shorter, and it is an `open()` that takes a line out of it.
-/

namespace NntpPoco

open Lines Prog NNTPClientSession

variable {π μ α : Type} {poco : Poco π μ α} {server : Server π}

/-- The replies `queue` have arrived and have not been read. -/
structure Lags (s : NNTPClientSession π) (queue : List Bytes) : Prop where
  connected : s.m_socket.Connected
  statusLines : ∀ l ∈ queue, StatusLine l
  unread : s.m_socket.unread = encodeLines queue

/-- The call has come to what `l` means as its reply. -/
def Takes (poco : Poco π μ α) (call : Operation × Except Exception (Result α)) (l : Bytes) : Prop :=
  ∃ message, (4 ≤ l.length → message = l) ∧ call.2 = call.1.meaning poco (.line l) message []

/-- One call, however it ends. -/
def Performs (poco : Poco π μ α) (s : NNTPClientSession π)
    (call : Operation × Except Exception (Result α)) (t : NNTPClientSession π) : Prop :=
  (call.1.run poco).Evals s call.2 t

/-- A command of one line, with one line for an answer. -/
def Operation.Short (op : Operation) : Prop := op.Clean ∧ op.hasBlock = false

section Step

variable {s : NNTPClientSession π} {queue rest : List Bytes} {l : Bytes}

/-- The first line of the queue is what a status line is read from. -/
theorem receive_first (hreads : poco.Reads) {socket : DialogSocket π} (hl : StatusLine l)
    (hunread : socket.unread = encodeLines (l :: rest)) :
    ∃ message, (4 ≤ l.length → message = l) ∧ poco.receiveStatusMessage socket =
      (.ok (statusOf l, message), { socket with unread := encodeLines rest }) := by
  have hfirst : socket.unread = l ++ (crlf ++ encodeLines rest) := by
    rw [hunread, encodeLines_cons]
  obtain ⟨message, hreceive, hmessage⟩ := hreads.receiveStatusMessage socket l _ hl hfirst
  exact ⟨message, hmessage, hreceive⟩

/-- An exchange reads the first line of the queue as well. -/
theorem exchange_first (hreads : poco.Reads) {send : Action π Unit} {line : Bytes}
    {socket : DialogSocket π} (hsend : send s.m_socket = (.ok (), socket)) (hl : StatusLine l)
    (hunread : socket.unread = encodeLines (l :: rest)) :
    ∃ message s', (4 ≤ l.length → message = l) ∧
      (exchange poco send line).Evals s (.ok (statusOf l, message)) s' ∧
      s'.m_socket = { socket with unread := encodeLines rest } := by
  obtain ⟨message, hmessage, hreceive⟩ := receive_first hreads hl hunread
  have hsent : (call send (sentEvent line)).Evals s (.ok ()) (s.after socket [.sent line]) :=
    call_evals hsend
  have hread : (call poco.receiveStatusMessage statusEvent).Evals (s.after socket [.sent line])
      (.ok (statusOf l, message)) _ := call_evals hreceive
  exact ⟨message, _, hmessage, hsent.bind hread, rfl⟩

/-- **One command** takes the first reply, and its own comes in behind the last. -/
theorem command_lags (hworks : Works poco server) (h : Lags s queue) {op : Operation}
    (hop : op.Short) :
    ∃ x t l answer rest, Performs poco s (op, x) t ∧ Takes poco (op, x) l ∧
      queue ++ [answer] = l :: rest ∧ op.Answers (.line answer) ∧
      server.react s.m_socket.peer op.line = (t.m_socket.peer, (Response.line answer).encode, false) ∧
      Lags t rest ∧ t.m_isOpen = s.m_isOpen := by
  obtain ⟨hclean, hshort⟩ := hop
  obtain ⟨r, hr, hanswer⟩ := hworks.conforms s.m_socket.peer op hclean
  cases hr with
  | @single answer hstatus _ =>
      -- the line that is at the front once the server has answered
      have hne : queue ++ [answer] ≠ [] := by simp
      obtain ⟨l, rest, hqueue⟩ := List.exists_cons_of_ne_nil hne
      have hlines : ∀ x ∈ l :: rest, StatusLine x := by
        rw [← hqueue, List.forall_mem_append, List.forall_mem_singleton]
        exact ⟨h.statusLines, hstatus⟩
      obtain ⟨hl, hrest⟩ := List.forall_mem_cons.mp hlines
      have hreact : server.react s.m_socket.peer op.line =
          ((server.react s.m_socket.peer op.line).1, (Response.line answer).encode, false) :=
        Prod.ext rfl hanswer
      have hbytes : (server.react s.m_socket.peer op.line).2.1 = encodeLines [answer] := by
        rw [hreact]
        exact (encodeLines_cons answer []).symm
      have hdelivered : (server.deliver op.line s.m_socket).unread = encodeLines (l :: rest) := by
        rw [← hqueue, encodeLines_append, ← h.unread, ← hbytes]
        rfl
      obtain ⟨message, s', hmessage, hexchange, hs'⟩ := exchange_first hworks.reads
        (op.send_eq hworks.writes h.connected) hl hdelivered
      obtain ⟨t, hhandle, hsocket, _⟩ := single_means hshort l message []
      have hrun : (op.run poco).Evals s (op.meaning poco (.line l) message []) t := by
        rw [Operation.run_eq]
        exact hexchange.bind hhandle
      have htaken := hsocket.trans hs'
      refine ⟨_, t, l, answer, rest, hrun, ⟨message, hmessage, rfl⟩, hqueue, .single hstatus hshort,
        ?_, ?_, run_isOpen hrun⟩
      · rw [htaken]
        exact hreact
      · constructor
        · rw [htaken]
          exact ⟨h.connected.1, congrArg (·.2.2) hreact⟩
        · exact hrest
        · rw [htaken]
  | refused _ hblock _ => exact absurd (hshort.symm.trans hblock) (by simp)
  | accepted _ hblock _ _ => exact absurd (hshort.symm.trans hblock) (by simp)

/-- **An `open()`** takes the first reply for the greeting. -/
theorem open_lags (hreads : poco.Reads) (h : Lags s (l :: rest)) (hnew : s.m_isOpen = false) :
    ∃ x t, (openSession poco).Evals s x t ∧ Lags t rest ∧
      t.m_isOpen = isPositiveCompletion (statusOf l) := by
  obtain ⟨hl, hrest⟩ := List.forall_mem_cons.mp h.statusLines
  obtain ⟨message, _, hreceive⟩ := receive_first hreads hl h.unread
  have hread : (call poco.receiveStatusMessage statusEvent).Evals s (.ok (statusOf l, message))
      (s.after { s.m_socket with unread := encodeLines rest } [.status (statusOf l) message]) :=
    call_evals hreceive
  obtain ⟨x, heval, _⟩ := openSession_greets hnew hread
  exact ⟨x, _, heval, ⟨h.connected, hrest, rfl⟩, rfl⟩

end Step

/-- What a run of the commands `ops` comes to on a session that `queue` is left over on: `calls` are the
    commands with their results, and `answers` what the server has answered to them. -/
structure Behind (poco : Poco π μ α) (server : Server π) (s : NNTPClientSession π)
    (queue : List Bytes) (ops : List Operation)
    (calls : List (Operation × Except Exception (Result α))) (answers : List Bytes)
    (t : NNTPClientSession π) : Prop where
  called : calls.map Prod.fst = ops
  runs : Lts.Runs (Performs poco) s calls t
  answered : server.Conversation s.m_socket.peer ops (answers.map .line) t.m_socket.peer
  taken : List.Forall₂ (Takes poco) calls ((queue ++ answers).take ops.length)
  lags : Lags t ((queue ++ answers).drop ops.length)
  length : ((queue ++ answers).drop ops.length).length = queue.length
  late : s.m_isOpen = false → ∀ l rest, (queue ++ answers).drop ops.length = l :: rest →
    ∃ x u, (openSession poco).Evals t x u ∧ Lags u rest ∧
      u.m_isOpen = isPositiveCompletion (statusOf l)

/-- **A session that is behind stays behind.** Whatever single-line commands are called on it, they all
    end, the server answers them in turn, and the `i`-th takes the `i`-th line of the queue as it was with
    these answers behind it. As many replies are left over as before; an `open()` takes one of them. -/
theorem leftover_replies (hworks : Works poco server) {s : NNTPClientSession π} {queue : List Bytes}
    (h : Lags s queue) {ops : List Operation} (hops : ∀ op ∈ ops, op.Short) :
    ∃ calls answers t, Behind poco server s queue ops calls answers t := by
  induction ops generalizing s queue with
  | nil =>
      have hall : (queue ++ []).drop 0 = queue := List.append_nil queue
      refine ⟨[], [], s, rfl, .nil, .nil, .nil, ?_, ?_, fun hnew l rest hleft => ?_⟩
      · rw [List.length_nil, hall]
        exact h
      · rw [List.length_nil, hall]
      · obtain rfl : queue = l :: rest := hall.symm.trans hleft
        exact open_lags hworks.reads h hnew
  | cons op ops ih =>
      obtain ⟨hop, hops⟩ := List.forall_mem_cons.mp hops
      obtain ⟨x, s', l, answer, rest, hcall, htakes, hqueue, hanswer, hreact, hlags, hopen⟩ :=
        command_lags hworks h hop
      obtain ⟨calls, answers, t, hbehind⟩ := ih hlags hops
      -- the queue with all the answers behind it, from this call and from the next
      have hall : queue ++ answer :: answers = l :: (rest ++ answers) := by
        rw [List.append_cons, hqueue, List.cons_append]
      have hlength : rest.length = queue.length := by
        have hsum := congrArg List.length hqueue
        simp only [List.length_append, List.length_cons, List.length_nil] at hsum
        omega
      refine ⟨(op, x) :: calls, answer :: answers, t, ?_⟩
      constructor
      · rw [List.map_cons, hbehind.called]
      · exact .cons hcall hbehind.runs
      · exact .cons hanswer hreact hbehind.answered
      · rw [hall]
        exact .cons htakes hbehind.taken
      · rw [hall]
        exact hbehind.lags
      · rw [hall]
        exact hbehind.length.trans hlength
      · rw [hall, ← hopen]
        exact hbehind.late

/-- A session that has not been opened: GROUP takes the greeting, and STAT the reply to GROUP. -/
theorem leftover_replies_unopened :
    let server := Server.accepting []
    let poco := Poco.reference server Reference.readAll (id : Bytes → Bytes)
    let ops : List Operation := [.selectNewsGroup (text "g"), .stat 5]
    ∃ calls answers t, Behind poco server greetedSession [text "200 ready"] ops calls answers t := by
  intro server poco ops
  have hworks : Works poco server := .reference (Server.accepting_conforms (by simp))
  have hg : StatusLine (text "200 ready") := ⟨by decide, rfl⟩
  have hlags : Lags greetedSession [text "200 ready"] :=
    ⟨⟨rfl, rfl⟩, List.forall_mem_singleton.mpr hg, rfl⟩
  have hops : ∀ op ∈ ops, op.Short := by
    intro op hop
    rcases List.mem_pair.mp hop with rfl | rfl
    · exact ⟨by decide, rfl⟩
    · exact ⟨trivial, rfl⟩
  exact leftover_replies hworks hlags hops

end NntpPoco
