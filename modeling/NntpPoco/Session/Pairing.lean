import NntpPoco.Poco.Reference
import NntpPoco.Session.Commands

/-!
# `Session.Pairing` — every response is read by its own request

The abstract view of a session is a conversation: requests and responses in turn, one response each
(`Server.Conversation`). A session over a byte stream refines it as long as every call leaves nothing
of its response unread. `run_exchanged` is the step, `paired_of_safeRun` the run.

The one call that can leave something behind is `article`, when `NewsArticle::read` throws inside the
block: the exception leaves before the draining loop. `safeRun_iff_alignedRun` says that this is the
only way.
-/

namespace NntpPoco

open Lines Prog NNTPClientSession

variable {π μ α : Type} {poco : Poco π μ α} {server : Server π}

/-! ## One step -/

/-- `op` has been answered with `r`, has read the status line of `r`, and has left nothing of it. -/
structure Exchanged (op : Operation) (r : Response) (p' : π) (s t : NNTPClientSession π) : Prop where
  unread : t.m_socket.unread = []
  connected : t.m_socket.Connected
  peer : t.m_socket.peer = p'
  written : t.m_socket.written = s.m_socket.written ++ op.line
  history : ∃ response, (4 ≤ r.status.length → response = r.status) ∧
    t.history = s.history ++ [.sent op.line, .status (statusOf r.status) response]

/-- The parser gets past the end of its block, should `op` be called in `s` and read one. -/
def SafeStep (poco : Poco π μ α) (server : Server π) (s : NNTPClientSession π) (op : Operation) :
    Prop :=
  ∀ r, op.Answers r → (server.react s.m_socket.peer op.line).2.1 = r.encode →
    op.ReadTakesResponse poco r

/-- Nothing is left unread when the operation starts. -/
def AlignedStep (s : NNTPClientSession π) (_ : Operation) : Prop := s.m_socket.unread = []

section Step

variable {s : NNTPClientSession π} {op : Operation} {r : Response} {p' : π}

/-- **One operation on an aligned connection** ends, and is an exchange of its own. -/
theorem run_exchanged (hwrites : poco.Writes server) (hreads : poco.Reads)
    (hblocks : poco.ReadsBlocks) (hconn : s.m_socket.Connected) (hunread : s.m_socket.unread = [])
    (hr : op.Answers r) (hreact : server.react s.m_socket.peer op.line = (p', r.encode, false))
    (hread : op.ReadTakesResponse poco r) :
    ∃ x t, (op.run poco).Evals s x t ∧ Exchanged op r p' s t := by
  have hbytes : (server.react s.m_socket.peer op.line).2.1 = r.status ++ (crlf ++ r.body) := by
    rw [hreact]
    rfl
  obtain ⟨response, htext, hexchange⟩ := exchange_evals hreads (op.send_eq hwrites hconn) hunread
    hr.statusLine hbytes
  obtain ⟨x, t, hhandle, hsocket, hhistory⟩ := op.handle_evals
    (s := s.answered server op.line r.body (statusOf r.status) response) hreads hblocks hr hread
    (by simp [answered, after, Server.deliver, hreact]) rfl response
  refine ⟨x, t, ?_, ?_⟩
  · rw [Operation.run_eq]
    exact hexchange.bind hhandle
  · constructor
    · rw [hsocket]
    · rw [hsocket]
      exact ⟨hconn.1, by simp [answered, after, Server.deliver, hreact]⟩
    · rw [hsocket]
      simp [answered, after, Server.deliver, hreact]
    · rw [hsocket]
      rfl
    · exact ⟨response, htext, by rw [hhistory]; rfl⟩

/-- An operation that leaves nothing unread had a parser that got past the end of its block. -/
theorem safeStep_of_aligned (hwrites : poco.Writes server) (hreads : poco.Reads)
    (hconn : s.m_socket.Connected) (hunread : s.m_socket.unread = [])
    (hreact : (server.react s.m_socket.peer op.line).2.2 = false) {x : Except Exception (Result α)}
    {t : NNTPClientSession π} (heval : (op.run poco).Evals s x t) (ht : t.m_socket.unread = []) :
    SafeStep poco server s op := by
  intro r hr hbytes hparses l ls hblock
  subst hblock
  obtain ⟨response, _, hexchange⟩ := exchange_evals hreads (op.send_eq hwrites hconn) hunread
    hr.statusLine hbytes
  rw [Operation.run_eq, hexchange.bind_iff, Operation.handle_of_parses hparses] at heval
  obtain ⟨_, htail, _⟩ := evals_map.mp heval
  cases hr with
  | accepted hl hop hstatus hls =>
      rw [Operation.accepts_of_parses hparses] at hstatus
      exact readTakesBlock_of_evals hreads (by simp) hreact rfl hstatus htail ht

end Step

/-! ## Whole runs -/

/-- After the operations `ops` each of them has read the status line of the response the server gave
    to it, and nothing the server sent is left unread. -/
def Paired (server : Server π) (s : NNTPClientSession π) (ops : List Operation)
    (t : NNTPClientSession π) : Prop :=
  ∃ rs events, server.Conversation s.m_socket.peer ops rs t.m_socket.peer ∧
    Recorded ops rs events ∧ t.history = s.history ++ events ∧ t.m_socket.unread = []

/-- **The run.** If no parser stops inside its block, the session is a conversation. -/
theorem paired_of_safeRun (hwrites : poco.Writes server) (hreads : poco.Reads)
    (hblocks : poco.ReadsBlocks) (hconf : server.Conforms) {s t : NNTPClientSession π}
    {ops : List Operation} (hclean : ∀ op ∈ ops, op.Clean)
    (hrun : Run poco (SafeStep poco server) s ops t) (hconn : s.m_socket.Connected)
    (hunread : s.m_socket.unread = []) : Paired server s ops t := by
  -- on the run: one response each, and the rest of the conversation with the server as it is then
  induction hrun with
  | nil => exact ⟨[], [], .nil, .nil, by simp, hunread⟩
  | @cons s op ops x s' t hok hop hrest ih =>
      obtain ⟨r, hr, hreact⟩ := hconf s.m_socket.peer op (hclean op List.mem_cons_self)
      have hreact' : server.react s.m_socket.peer op.line =
          ((server.react s.m_socket.peer op.line).1, r.encode, false) := by
        rw [← hreact]
      obtain ⟨x', s'', heval, hexchanged⟩ := run_exchanged hwrites hreads hblocks hconn hunread hr
        hreact' (hok r hr (by rw [hreact]))
      obtain ⟨-, rfl⟩ := hop.unique heval
      obtain ⟨rs, events, hconv, hrec, hhistory, hend⟩ := ih
        (fun op' h => hclean op' (List.mem_cons_of_mem _ h)) hexchanged.connected hexchanged.unread
      obtain ⟨response, htext, hevents⟩ := hexchanged.history
      rw [hexchanged.peer] at hconv
      refine ⟨r :: rs, _, .cons hr hreact' hconv, .cons response htext hrec, ?_, hend⟩
      rw [hhistory, hevents]
      simp

theorem Run.unread_of_aligned {s t : NNTPClientSession π} {ops : List Operation}
    (hrun : Run poco AlignedStep s ops t) (ht : t.m_socket.unread = []) :
    s.m_socket.unread = [] := by
  cases hrun with
  | nil => exact ht
  | cons hok _ _ => exact hok

/-- **A session stays aligned exactly as long as no parser stops inside its block.** -/
theorem safeRun_iff_alignedRun (hwrites : poco.Writes server) (hreads : poco.Reads)
    (hblocks : poco.ReadsBlocks) (hconf : server.Conforms) {s t : NNTPClientSession π}
    {ops : List Operation} (hclean : ∀ op ∈ ops, op.Clean) (hrun : Run poco (fun _ _ => True) s ops t)
    (hconn : s.m_socket.Connected) (hunread : s.m_socket.unread = []) :
    Run poco (SafeStep poco server) s ops t ↔
      Run poco AlignedStep s ops t ∧ t.m_socket.unread = [] := by
  induction hrun with
  | nil => exact ⟨fun _ => ⟨.nil, hunread⟩, fun _ => .nil⟩
  | @cons s op ops x s' t _ hop hrest ih =>
      have hclean' : ∀ op ∈ ops, op.Clean := fun op' h => hclean op' (List.mem_cons_of_mem _ h)
      obtain ⟨r, hr, hreact⟩ := hconf s.m_socket.peer op (hclean op List.mem_cons_self)
      -- a safe step is an exchange of its own, after which the rest of the run starts aligned
      have hstep : SafeStep poco server s op → Exchanged op r
          (server.react s.m_socket.peer op.line).1 s s' := by
        intro hsafe
        have hreact' : server.react s.m_socket.peer op.line =
            ((server.react s.m_socket.peer op.line).1, r.encode, false) := by
          rw [← hreact]
        obtain ⟨x', s'', heval, hexchanged⟩ := run_exchanged hwrites hreads hblocks hconn hunread hr
          hreact' (hsafe r hr (by rw [hreact]))
        obtain ⟨-, rfl⟩ := hop.unique heval
        exact hexchanged
      constructor
      · intro hsafe
        cases hsafe with
        | cons hok hop' hrest' =>
            obtain ⟨-, rfl⟩ := hop.unique hop'
            have hexchanged := hstep hok
            obtain ⟨haligned, ht⟩ :=
              (ih hclean' hexchanged.connected hexchanged.unread).mp hrest'
            exact ⟨.cons hunread hop haligned, ht⟩
      · rintro ⟨haligned, ht⟩
        cases haligned with
        | cons _ hop' hrest' =>
            obtain ⟨-, rfl⟩ := hop.unique hop'
            have hsafe := safeStep_of_aligned hwrites hreads hconn hunread (by rw [hreact]) hop
              (hrest'.unread_of_aligned ht)
            have hexchanged := hstep hsafe
            exact .cons hsafe hop
              ((ih hclean' hexchanged.connected hexchanged.unread).mpr ⟨hrest', ht⟩)

/-- A successful `open()` takes the greeting and nothing else. -/
theorem openSession_socket (hreads : poco.Reads) {greeting : Bytes} (hg : StatusLine greeting)
    {s₀ s : NNTPClientSession π} (hclosed : s₀.m_isOpen = false)
    (hunread : s₀.m_socket.unread = greeting ++ crlf)
    (hopen : (openSession poco).Evals s₀ (.ok ()) s) :
    s.m_socket = { s₀.m_socket with unread := [] } := by
  obtain ⟨response, hreceive, _⟩ :=
    hreads.receiveStatusMessage s₀.m_socket greeting [] hg (by simpa using hunread)
  rw [openSession, evals_get_bind] at hopen
  simp only [hclosed, Bool.not_false, if_true] at hopen
  rw [Evals.bind_iff (call_evals hreceive)] at hopen
  cases hstatus : isPositiveCompletion (statusOf greeting) with
  | false => simp [hstatus] at hopen
  | true =>
      simp only [hstatus, Bool.not_true, Bool.false_eq_true, if_false, evals_modify] at hopen
      rw [hopen.2]
      rfl

/-- Every state a session goes through, from `s` to `t`, has nothing unread, and each operation has
    read the status line of its own response. -/
def PairedThroughout (poco : Poco π μ α) (server : Server π) (s : NNTPClientSession π)
    (ops : List Operation) (t : NNTPClientSession π) : Prop :=
  Run poco AlignedStep s ops t ∧ Paired server s ops t

/-- **Request/response pairing.** From a session on which `open()` has succeeded, any sequence of
    operations, whatever they are answered and however they end, keeps every request with its own
    response if and only if no `NewsArticle::read` of the run stops inside its block. -/
theorem requests_pair_with_responses (hwrites : poco.Writes server) (hreads : poco.Reads)
    (hblocks : poco.ReadsBlocks) (hconf : server.Conforms) {greeting : Bytes}
    (hg : StatusLine greeting) {s₀ s t : NNTPClientSession π} (hnew : s₀.m_isOpen = false)
    (hconn : s₀.m_socket.Connected) (hgreeting : s₀.m_socket.unread = greeting ++ crlf)
    (hopen : (openSession poco).Evals s₀ (.ok ()) s) {ops : List Operation}
    (hclean : ∀ op ∈ ops, op.Clean) (hrun : Run poco (fun _ _ => True) s ops t) :
    PairedThroughout poco server s ops t ↔ Run poco (SafeStep poco server) s ops t := by
  have hsocket := openSession_socket hreads hg hnew hgreeting hopen
  have hunread : s.m_socket.unread = [] := by rw [hsocket]
  have hconn' : s.m_socket.Connected := by
    rw [hsocket]
    exact hconn
  have hiff := safeRun_iff_alignedRun hwrites hreads hblocks hconf hclean hrun hconn' hunread
  constructor
  · rintro ⟨haligned, hpaired⟩
    obtain ⟨_, _, _, _, _, ht⟩ := hpaired
    exact hiff.mpr ⟨haligned, ht⟩
  · intro hsafe
    exact ⟨(hiff.mp hsafe).1,
      paired_of_safeRun hwrites hreads hblocks hconf hclean hsafe hconn' hunread⟩

theorem requests_pair_with_responses_accepting :
    let server := Server.accepting [text "From: me", [], text "body"]
    let poco := Poco.reference server Reference.readAll id
    let ops := [.capabilities, .article, .stat 5, .articleRaw, .selectNewsGroup (text "g")]
    ∃ t, Run poco (fun _ _ => True) openedSession ops t ∧
      (PairedThroughout poco server openedSession ops t ↔
        Run poco (SafeStep poco server) openedSession ops t) := by
  intro server poco ops
  have hopen : (openSession poco).Evals greetedSession (.ok ()) openedSession := ⟨1, by rfl⟩
  have hsome : (runAll poco 99 openedSession ops).isSome = true := by decide +kernel
  obtain ⟨t, ht⟩ := Option.isSome_iff_exists.mp hsome
  have hrun := run_of_runAll ht
  have hgreeting : greetedSession.m_socket.unread = text "200 ready" ++ crlf := rfl
  exact ⟨t, hrun, requests_pair_with_responses Reference.writes Reference.reads
    Reference.readsBlocks (Server.accepting_conforms (by decide)) ⟨by decide, rfl⟩ rfl ⟨rfl, rfl⟩
    hgreeting hopen (by decide) hrun⟩

/-- A parser that gives up at a line without a colon leaves the rest of the article in the socket: the
    next request, a STAT, takes a line of the body for its status. -/
theorem stat_reads_body_line :
    let server := Server.accepting [text "no colon", text "x200 fake"]
    let poco := Poco.reference server (Reference.failAfter 9) id
    let ops := [.article, .stat 5]
    server.Conforms ∧ (openSession poco).Evals greetedSession (.ok ()) openedSession ∧
      ∃ t, Run poco (fun _ _ => True) openedSession ops t ∧
        t.history.getLast? = some (.status 200 (text "200 fake")) ∧
        ¬ PairedThroughout poco server openedSession ops t := by
  intro server poco ops
  have hopen : (openSession poco).Evals greetedSession (.ok ()) openedSession := ⟨1, by rfl⟩
  have hhistory : (runAll poco 99 openedSession ops).map (·.history.getLast?) =
      some (some (.status 200 (text "200 fake"))) := by decide +kernel
  have hleft : (runAll poco 99 openedSession ops).map (·.m_socket.unread.isEmpty) =
      some false := by decide +kernel
  obtain ⟨t, ht, hlast⟩ := Option.map_eq_some_iff.mp hhistory
  rw [ht] at hleft
  refine ⟨Server.accepting_conforms (by decide), hopen, t, run_of_runAll ht, hlast, ?_⟩
  rintro ⟨_, _, _, _, _, _, hempty⟩
  rw [Option.map_some, hempty] at hleft
  exact absurd hleft (by decide)

/-! ## One `article` -/

/-- **The error path of `article`.** For either overload, after an accepted response and whatever the
    server sends behind it, `article` leaves exactly what is behind the response if and only if its
    parser gets past the end of the block. -/
theorem article_takes_response_iff (hwrites : poco.Writes server) (hreads : poco.Reads)
    (hcut : poco.ReadsCut) (hblocks : poco.ReadsBlocks) {op : Operation} (hop : op.parses = true)
    {s : NNTPClientSession π} (hconn : s.m_socket.Connected) (hunread : s.m_socket.unread = [])
    {l rest : Bytes} {ls : List Bytes} {closed : Bool} (hl : StatusLine l)
    (hstatus : isPositiveCompletion (statusOf l) = true) (hls : ∀ x ∈ ls, BreakFree x)
    (hreact : (server.react s.m_socket.peer op.line).2 =
      (l ++ (crlf ++ (encodeBlock ls ++ rest)), closed)) :
    (∃ x t, (op.run poco).Evals s x t ∧ t.m_socket.unread = rest) ↔
      poco.ReadTakesBlock closed (encodeBlock ls ++ rest) rest := by
  obtain ⟨response, _, hexchange⟩ := exchange_evals hreads (op.send_eq hwrites hconn) hunread hl
    (congrArg Prod.fst hreact)
  have hclosed : (s.answered server op.line (encodeBlock ls ++ rest) (statusOf l)
      response).m_socket.peerClosed = closed := congrArg Prod.snd hreact
  rw [Operation.run_eq]
  constructor
  · rintro ⟨x, t, heval, ht⟩
    rw [hexchange.bind_iff, Operation.handle_of_parses hop] at heval
    obtain ⟨_, htail, _⟩ := evals_map.mp heval
    exact readTakesBlock_of_evals hreads (fun _ => hcut) hclosed rfl hstatus htail ht
  · intro htakes
    obtain ⟨content, hf⟩ := hblocks closed ls rest hls
    obtain ⟨x, htail⟩ :=
      articleTail_evals hreads (fun _ => hcut) hclosed rfl hstatus hf htakes response
    have hhandle := htail.map Result.article
    rw [← Operation.handle_of_parses hop] at hhandle
    exact ⟨_, _, hexchange.bind hhandle, rfl⟩

theorem article_takes_response_iff_accepting :
    let server := Server.accepting [text "From: me", [], text "body"]
    let poco := Poco.reference server Reference.readAll id
    (∃ x t, ((Operation.article).run poco).Evals openedSession x t ∧ t.m_socket.unread = []) ↔
      poco.ReadTakesBlock false (encodeBlock [text "From: me", [], text "body"] ++ []) [] :=
  article_takes_response_iff Reference.writes Reference.reads Reference.readsCut
    Reference.readsBlocks rfl ⟨rfl, rfl⟩ rfl (l := text "220 follows") ⟨by decide, rfl⟩ rfl
    (by decide) rfl

/-- With the parser that gives up at a line without a colon, `article` leaves by an exception and the
    rest of the article is still in the socket. -/
theorem article_leaves_rest :
    let poco := Poco.reference (Server.accepting [text "no colon", text "x200 fake"])
      (Reference.failAfter 9) id
    ∃ t, ((Operation.article).run poco).Evals openedSession (.error (.malformed 9)) t ∧
      t.m_socket.unread = text "200 fake\r\n.\r\n" := by
  intro poco
  have hrun : (((Operation.article).run poco).run 99 openedSession).map
      (fun y => (y.1, y.2.m_socket.unread)) =
      some (.error (.malformed 9), text "200 fake\r\n.\r\n") := by decide +kernel
  exact exists_evals_of_run 99 (fun t : NNTPClientSession ℕ => t.m_socket.unread) hrun

end NntpPoco
