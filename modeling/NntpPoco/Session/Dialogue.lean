import NntpPoco.Lib.Lts
import NntpPoco.Session.Outcome
import NntpPoco.Session.Pairing

/-!
# `Session.Dialogue` — a session is a dialogue of commands and meanings

`Session.Pairing` says that every command reads its own response. This module says what it makes of it:
`meaning` is the result of a command as a function of the response, and `Speaks` is the abstract session,
with no socket, no bytes and no loop: the state of the server and the group selected, changed by one
command and one response at a time. `calls_refine_dialogue` is the refinement, over whole runs.
-/

namespace NntpPoco

open Lines Prog NNTPClientSession

variable {π μ α : Type} {poco : Poco π μ α} {server : Server π}

/-! ## What a response means -/

/-- The lines of the block, if there is one. -/
def Response.lines : Response → List Bytes
  | .line _ => []
  | .block _ ls => ls

namespace Operation

/-- The message of the exception a refused command throws; a refused STAT throws nothing. -/
def complaint : Operation → String
  | .capabilities => "Cannot get capabilities"
  | .listNewsGroups _ => "Cannot list newsgroups"
  | .selectNewsGroup _ => "Cannot set newsgroup"
  | .articleHeader => "Cannot get article header"
  | .articleRaw => "Cannot get article body"
  | .article => "Cannot get article body"
  | .articleNumber _ => "Cannot get article body"
  | .stat _ => ""

/-- The result of an accepted command: `message` is its status message, `ls` the lines of its block and
    `content` their text. The line-based commands give the lines as they were sent, with the dots that
    were stuffed. -/
def reading (poco : Poco π μ α) (message : Bytes) (ls : List Bytes) (content : Bytes) :
    Operation → Except Exception (Result α)
  | .capabilities => .ok (.lines (ls.map stuff))
  | .listNewsGroups _ => ((ls.map stuff).mapM groupDesc).map .groups
  | .selectNewsGroup newsgroup => (groupReply poco newsgroup message).map .active
  | .articleHeader => .ok (.lines (ls.map stuff))
  | .articleRaw => .ok (.lines (ls.map stuff))
  | .article => (poco.read.run [] content).result.map .article
  | .articleNumber _ => (poco.read.run [] content).result.map .article
  | .stat _ => .ok (.verdict true)

/-- The result of a refused command. -/
def refusal (message : Bytes) (status : Int) : Operation → Except Exception (Result α)
  | .stat _ => .ok (.verdict false)
  | op => .error (.nntp op.complaint message status)

/-- **What a command makes of its response.** -/
def meaning (poco : Poco π μ α) (op : Operation) (r : Response) (message content : Bytes) :
    Except Exception (Result α) :=
  if op.accepts (statusOf r.status) then op.reading poco message r.lines content
  else op.refusal message (statusOf r.status)

theorem meaning_accepted (op : Operation) (r : Response) (h : op.accepts (statusOf r.status) = true)
    (message content : Bytes) :
    op.meaning poco r message content = op.reading poco message r.lines content := if_pos h

theorem meaning_refused (op : Operation) (r : Response) (h : op.accepts (statusOf r.status) = false)
    (message content : Bytes) :
    op.meaning poco r message content = op.refusal message (statusOf r.status) :=
  if_neg (by rw [h]; exact Bool.false_ne_true)

/-- The group the session has selected once the command has its response. -/
def members (poco : Poco π μ α) (r : Response) (message : Bytes) (g : ActiveNewsGroup) :
    Operation → ActiveNewsGroup
  | .selectNewsGroup newsgroup =>
    if isPositiveCompletion (statusOf r.status) then assigned poco newsgroup message g else g
  | _ => g

end Operation

/-! ## The two levels -/

/-- One call on a session: the command, and what it came to. It is called with a clean argument, and
    unless it returns its parser, if it has one, gets past the end of its block. -/
def Calls (poco : Poco π μ α) (server : Server π) (s : NNTPClientSession π)
    (call : Operation × Except Exception (Result α)) (t : NNTPClientSession π) : Prop :=
  call.1.Clean ∧ ((∃ v, call.2 = .ok v) ∨ SafeStep poco server s call.1) ∧
    (call.1.run poco).Evals s call.2 t

/-- The abstract session: the state of the server, and the group selected. -/
abbrev Dialogue (π : Type) := π × ActiveNewsGroup

/-- One exchange of the abstract session: the server answers the command with one response of the right
    shape, and the command comes to what the response means. -/
inductive Speaks (poco : Poco π μ α) (server : Server π) :
    Dialogue π → Operation × Except Exception (Result α) → Dialogue π → Prop
  | exchange {p g op r p' message content} (hr : op.Answers r)
      (hreact : server.react p op.line = (p', r.encode, false))
      (hmessage : 4 ≤ r.status.length → message = r.status) (hcontent : Poco.TextOf r.lines content) :
      Speaks poco server (p, g) (op, op.meaning poco r message content)
        (p', op.members poco r message g)

theorem Speaks.inv {d d' : Dialogue π} {op : Operation} {x : Except Exception (Result α)}
    (h : Speaks poco server d (op, x) d') :
    ∃ r message content, op.Answers r ∧ server.react d.1 op.line = (d'.1, r.encode, false) ∧
      (4 ≤ r.status.length → message = r.status) ∧ Poco.TextOf r.lines content ∧
      x = op.meaning poco r message content ∧ d'.2 = op.members poco r message d.2 := by
  cases h with
  | exchange hr hreact hmessage hcontent =>
      exact ⟨_, _, _, hr, hreact, hmessage, hcontent, rfl, rfl⟩

/-- A connection that works, to a server that answers every command. -/
structure Works (poco : Poco π μ α) (server : Server π) : Prop where
  writes : poco.Writes server
  reads : poco.Reads
  readsBlocks : poco.ReadsBlocks
  unstuffs : poco.Unstuffs
  conforms : server.Conforms

/-- The reference functions on such a server. -/
theorem Works.reference [Inhabited α] {read : Pull.Consumer UInt8 (Except Exception α)}
    {view : α → Bytes} (hconf : server.Conforms) : Works (Poco.reference server read view) server :=
  ⟨Reference.writes, Reference.reads, Reference.readsBlocks, Reference.unstuffs, hconf⟩

/-! ## One command -/

section Step

variable {s : NNTPClientSession π}

theorem groupTail_means (newsgroup : Bytes) (l message content : Bytes) :
    ∃ t, ((Operation.selectNewsGroup newsgroup).handle poco (statusOf l, message)).Evals s
        ((Operation.selectNewsGroup newsgroup).meaning poco (.line l) message content) t ∧
      t.m_socket = s.m_socket ∧ t.activeGroup =
        (Operation.selectNewsGroup newsgroup).members poco (.line l) message s.activeGroup := by
  cases hstatus : isPositiveCompletion (statusOf l) with
  | false =>
      have hrefused : ((Operation.selectNewsGroup newsgroup).handle poco (statusOf l, message)).Evals s
          _ s := (groupTail_refused hstatus newsgroup message).map Result.active
      rw [Operation.meaning_refused (.selectNewsGroup newsgroup) (.line l) hstatus]
      refine ⟨s, hrefused, rfl, ?_⟩
      simp [Operation.members, Response.status, hstatus]
  | true =>
      obtain ⟨houtcome, hmembers⟩ := groupOutcome_eq poco newsgroup message s
      have haccepted := (groupTail_accepted poco (s := s) hstatus newsgroup message).map
        (Result.active (α := α))
      rw [houtcome] at haccepted
      rw [Operation.meaning_accepted (.selectNewsGroup newsgroup) (.line l) hstatus]
      refine ⟨_, haccepted, (groupOutcome_frame poco newsgroup message s).1, ?_⟩
      simpa [Operation.members, Response.status, hstatus] using hmembers

/-- **A command without a block** comes to what its status line means, whatever is behind that. -/
theorem single_means {op : Operation} (hop : op.hasBlock = false) (l message content : Bytes) :
    ∃ t, (op.handle poco (statusOf l, message)).Evals s (op.meaning poco (.line l) message content) t ∧
      t.m_socket = s.m_socket ∧
      t.activeGroup = op.members poco (.line l) message s.activeGroup := by
  cases op with
  | selectNewsGroup newsgroup => exact groupTail_means newsgroup l message content
  | stat n =>
      have hverdict : (Operation.stat n).meaning poco (.line l) message content =
          .ok (.verdict (isPositiveCompletion (statusOf l))) := by
        cases hstatus : isPositiveCompletion (statusOf l) with
        | true => exact Operation.meaning_accepted (.stat n) (.line l) hstatus _ _
        | false => exact Operation.meaning_refused (.stat n) (.line l) hstatus _ _
      rw [hverdict]
      exact ⟨s, (statTail_evals (statusOf l) message).map _, rfl, rfl⟩
  | _ => exact absurd hop (by simp [Operation.hasBlock])

/-- **A command that has read its status line comes to what its response means.** If it returns, it has
    taken all of it. -/
theorem handle_means (hreads : poco.Reads) (hblocks : poco.ReadsBlocks) (hunstuffs : poco.Unstuffs)
    {op : Operation} {r : Response} (hr : op.Answers r) (hclosed : s.m_socket.peerClosed = false)
    (hunread : s.m_socket.unread = r.body) (message : Bytes) :
    ∃ content t, Poco.TextOf r.lines content ∧
      (op.handle poco (statusOf r.status, message)).Evals s (op.meaning poco r message content) t ∧
      t.activeGroup = op.members poco r message s.activeGroup ∧
      ∃ raw, t.m_socket = { s.m_socket with unread := raw } ∧
        ∀ v, op.meaning poco r message content = .ok v → raw = [] := by
  have hempty : Poco.TextOf [] ([] : Bytes) := Or.inl rfl
  cases hr with
  | @single l hl hop =>
      have hself : s.m_socket = { s.m_socket with unread := [] } := by
        rw [← show s.m_socket.unread = [] from hunread]
      obtain ⟨t, heval, hsocket, hmembers⟩ := single_means hop l message []
      exact ⟨[], t, hempty, heval, hmembers, [], hsocket.trans hself, fun _ _ => rfl⟩
  | @refused l hl hop hstatus =>
      have hself : s.m_socket = { s.m_socket with unread := [] } := by
        rw [← show s.m_socket.unread = [] from hunread]
      have hmeaning : ∀ content, op.meaning poco (.line l) message content =
          op.refusal message (statusOf l) :=
        fun content => Operation.meaning_refused op (.line l) hstatus message content
      simp only [hmeaning]
      cases op with
      | capabilities =>
          exact ⟨[], s, hempty, (blockTail_refused hstatus _ message).map _, rfl, [], hself, fun _ _ => rfl⟩
      | listNewsGroups wildMat =>
          exact ⟨[], s, hempty, (listTail_refused hstatus message).map _, rfl, [], hself, fun _ _ => rfl⟩
      | selectNewsGroup newsgroup => exact absurd hop (by simp [Operation.hasBlock])
      | articleHeader =>
          exact ⟨[], s, hempty, (blockTail_refused hstatus _ message).map _, rfl, [], hself, fun _ _ => rfl⟩
      | articleRaw =>
          exact ⟨[], s, hempty, (blockTail_refused hstatus _ message).map _, rfl, [], hself, fun _ _ => rfl⟩
      | article =>
          exact ⟨[], s, hempty, (articleBody_refused message hstatus).map _, rfl, [], hself, fun _ _ => rfl⟩
      | articleNumber n =>
          exact ⟨[], s, hempty, (articleBody_refused message hstatus).map _, rfl, [], hself, fun _ _ => rfl⟩
      | stat n => exact absurd hop (by simp [Operation.hasBlock])
  | @accepted l ls hl hop hstatus hls =>
      have hmeaning : ∀ content, op.meaning poco (.block l ls) message content =
          op.reading poco message ls content :=
        fun content => Operation.meaning_accepted op (.block l ls) hstatus message content
      simp only [hmeaning]
      have hunread' : s.m_socket.unread = encodeBlock ls ++ [] := by
        rw [List.append_nil]
        exact hunread
      have hlines : Poco.TextOf ls (encodeLines ls) := Or.inr rfl
      have hparses : isPositiveCompletion (statusOf l) = true →
          ∃ content raw, Poco.TextOf ls content ∧ (articleTail poco (statusOf l, message)).Evals s
            (poco.read.run [] content).result (s.withUnread raw) ∧
          ∀ v, (poco.read.run [] content).result.map Result.article = .ok v → raw = [] := by
        intro hpositive
        obtain ⟨content, raw, htext, heval, htaken⟩ := articleTail_reads hreads hblocks hunstuffs
          (fun h => absurd (hclosed.symm.trans h) (by simp)) hpositive hls hunread' message
        refine ⟨content, raw, htext, heval, fun v hv => ?_⟩
        cases hresult : (poco.read.run [] content).result with
        | error e =>
            rw [hresult] at hv
            exact absurd hv (by simp [Except.map])
        | ok a => exact htaken a hresult
      cases op with
      | capabilities =>
          exact ⟨_, _, hlines, (blockTail_evals hreads hstatus hls hunread' _ message).map _, rfl, [], rfl,
            fun _ _ => rfl⟩
      | listNewsGroups wildMat =>
          exact ⟨_, _, hlines, (listTail_evals hreads hstatus hls hunread' message).map _, rfl, [], rfl,
            fun _ _ => rfl⟩
      | selectNewsGroup newsgroup => exact absurd hop (by simp [Operation.hasBlock])
      | articleHeader =>
          exact ⟨_, _, hlines, (blockTail_evals hreads hstatus hls hunread' _ message).map _, rfl, [], rfl,
            fun _ _ => rfl⟩
      | articleRaw =>
          exact ⟨_, _, hlines, (blockTail_evals hreads hstatus hls hunread' _ message).map _, rfl, [], rfl,
            fun _ _ => rfl⟩
      | article =>
          obtain ⟨content, raw, htext, heval, htaken⟩ := hparses hstatus
          exact ⟨content, _, htext, heval.map _, rfl, raw, rfl, htaken⟩
      | articleNumber n =>
          obtain ⟨content, raw, htext, heval, htaken⟩ := hparses hstatus
          exact ⟨content, _, htext, heval.map _, rfl, raw, rfl, htaken⟩
      | stat n => exact absurd hop (by simp [Operation.hasBlock])

/-- **One call on an aligned session** ends, and is one exchange of the abstract session. If it returns,
    it leaves the session aligned. -/
theorem call_speaks (hworks : Works poco server) (hconn : s.m_socket.Connected)
    (hunread : s.m_socket.unread = []) {op : Operation} (hclean : op.Clean) :
    ∃ x t, (op.run poco).Evals s x t ∧
      Speaks poco server (s.m_socket.peer, s.activeGroup) (op, x) (t.m_socket.peer, t.activeGroup) ∧
      t.m_socket.Connected ∧ ∀ v, x = .ok v → t.m_socket.unread = [] := by
  obtain ⟨r, hr, hanswer⟩ := hworks.conforms s.m_socket.peer op hclean
  have hreact : server.react s.m_socket.peer op.line =
      ((server.react s.m_socket.peer op.line).1, r.encode, false) := Prod.ext rfl hanswer
  have hbytes : (server.react s.m_socket.peer op.line).2.1 = r.status ++ (crlf ++ r.body) := by
    rw [hreact]
    rfl
  obtain ⟨message, hmessage, hexchange⟩ := exchange_evals hworks.reads
    (op.send_eq hworks.writes hconn) hunread hr.statusLine hbytes
  have hclosed : (s.answered server op.line r.body (statusOf r.status) message).m_socket.peerClosed =
      false := congrArg (·.2.2) hreact
  obtain ⟨content, t, hcontent, hhandle, hmembers, raw, hsocket, htaken⟩ :=
    handle_means hworks.reads hworks.readsBlocks hworks.unstuffs hr hclosed rfl message
  refine ⟨op.meaning poco r message content, t, ?_, ?_, ?_, ?_⟩
  · rw [Operation.run_eq]
    exact hexchange.bind hhandle
  · rw [hsocket, hmembers]
    exact .exchange hr hreact hmessage hcontent
  · rw [hsocket]
    exact ⟨hconn.1, hclosed⟩
  · intro v hv
    rw [hsocket]
    exact htaken v hv

/-- It leaves the session aligned, too, if its parser gets past the end of its block. -/
theorem call_aligned (hworks : Works poco server) (hconn : s.m_socket.Connected)
    (hunread : s.m_socket.unread = []) {op : Operation} (hclean : op.Clean)
    (hsafe : SafeStep poco server s op) {x : Except Exception (Result α)} {t : NNTPClientSession π}
    (h : (op.run poco).Evals s x t) : t.m_socket.unread = [] := by
  obtain ⟨r, hr, hanswer⟩ := hworks.conforms s.m_socket.peer op hclean
  have hreact : server.react s.m_socket.peer op.line =
      ((server.react s.m_socket.peer op.line).1, r.encode, false) := Prod.ext rfl hanswer
  obtain ⟨x', t', heval, hexchanged⟩ := run_exchanged hworks.writes hworks.reads hworks.readsBlocks
    hconn hunread hr hreact (hsafe r hr (by rw [hreact]))
  obtain ⟨-, rfl⟩ := h.unique heval
  exact hexchanged.unread

/-- The same for the member function of a command. -/
theorem member_speaks {β : Type} {p : Method π β} {f : β → Result α} {op : Operation}
    (hop : op.run poco = f <$> p) (hworks : Works poco server) (hconn : s.m_socket.Connected)
    (hunread : s.m_socket.unread = []) (hclean : op.Clean) :
    ∃ x t, p.Evals s x t ∧
      Speaks poco server (s.m_socket.peer, s.activeGroup) (op, x.map f)
        (t.m_socket.peer, t.activeGroup) ∧
      t.m_socket.Connected ∧ ∀ b, x = .ok b → t.m_socket.unread = [] := by
  obtain ⟨y, t, hrun, hspeaks, hconn', htaken⟩ := call_speaks hworks hconn hunread hclean
  rw [hop] at hrun
  obtain ⟨x, heval, rfl⟩ := evals_map.mp hrun
  refine ⟨x, t, heval, hspeaks, hconn', fun b hb => htaken (f b) ?_⟩
  rw [hb]
  rfl

/-- A parser that accepts everything gets past every block. -/
theorem safeStep_of_accepts (hread : ∀ content, ∃ a, (poco.read.run [] content).result = .ok a)
    (s : NNTPClientSession π) (op : Operation) : SafeStep poco server s op :=
  fun _ _ _ _ _ _ _ content _ => Or.inl (hread content)

end Step

/-! ## Whole runs -/

/-- The concrete session stands at a point of the dialogue: it is connected with nothing left to read,
    to a server in that state, and its members hold that group. -/
structure Stands (s : NNTPClientSession π) (d : Dialogue π) : Prop where
  connected : s.m_socket.Connected
  unread : s.m_socket.unread = []
  state : d = (s.m_socket.peer, s.activeGroup)

/-- **What `open()` makes of the status line** that it has read. -/
theorem openSession_greets {s s' : NNTPClientSession π} {status : Int} {response : Bytes}
    (hnew : s.m_isOpen = false)
    (hread : (call poco.receiveStatusMessage statusEvent).Evals s (.ok (status, response)) s') :
    ∃ x, (openSession poco).Evals s x { s' with m_isOpen := isPositiveCompletion status } ∧
      (isPositiveCompletion status = true → x = .ok ()) := by
  unfold openSession
  simp only [evals_get_bind, hnew, Bool.not_false, if_true]
  cases hcode : isPositiveCompletion status with
  | false =>
      have hsame : { s' with m_isOpen := false } = s' := by
        rw [← hnew, (evals_call.mp hread).2]
        rfl
      rw [hsame]
      refine ⟨.error (.nntp "The news service is unavailable" response status), ?_, by simp⟩
      apply hread.bind
      simp only [hcode, Bool.not_false, if_true]
      exact evals_throw.mpr ⟨rfl, rfl⟩
  | true =>
      refine ⟨.ok (), ?_, fun _ => rfl⟩
      apply hread.bind
      simp only [hcode, Bool.not_true, Bool.false_eq_true, if_false]
      exact evals_modify.mpr ⟨rfl, rfl⟩

theorem openSession_halts (poco : Poco π μ α) (s : NNTPClientSession π) :
    ∃ x t, (openSession poco).Evals s x t := by
  cases hopen : s.m_isOpen with
  | true =>
      unfold openSession
      simp only [evals_get_bind, hopen]
      exact ⟨_, _, evals_return () s⟩
  | false =>
      cases hreceive : (poco.receiveStatusMessage s.m_socket).1 with
      | error e =>
          have hthrows : (call poco.receiveStatusMessage statusEvent).Evals s (.error e)
              (s.after (poco.receiveStatusMessage s.m_socket).2 (statusEvent (.error e))) :=
            call_evals (Prod.ext hreceive rfl)
          unfold openSession
          simp only [evals_get_bind, hopen]
          exact ⟨_, _, hthrows.bind_error⟩
      | ok answer =>
          have hread : (call poco.receiveStatusMessage statusEvent).Evals s (.ok answer)
              (s.after (poco.receiveStatusMessage s.m_socket).2 (statusEvent (.ok answer))) :=
            call_evals (Prod.ext hreceive rfl)
          obtain ⟨x, heval, _⟩ := openSession_greets hopen hread
          exact ⟨x, _, heval⟩

/-- `open()` on a positive greeting. -/
theorem openSession_stands (hreads : poco.Reads) {socket : DialogSocket π} (hconn : socket.Connected)
    {greeting : Bytes} (hg : StatusLine greeting)
    (hcode : isPositiveCompletion (statusOf greeting) = true)
    (hgreeting : socket.unread = greeting ++ crlf) :
    ∃ s, (openSession poco).Evals (.ofSocket socket) (.ok ()) s ∧
      Stands s (socket.peer, ⟨[], 0, 0, 0⟩) := by
  obtain ⟨response, hreceive, _⟩ :=
    hreads.receiveStatusMessage socket greeting [] hg (by rw [List.append_nil]; exact hgreeting)
  have hread : (call poco.receiveStatusMessage statusEvent).Evals (.ofSocket socket)
      (.ok (statusOf greeting, response))
      ((NNTPClientSession.ofSocket socket).after { socket with unread := [] }
        [.status (statusOf greeting) response]) := call_evals hreceive
  obtain ⟨x, heval, hx⟩ := openSession_greets rfl hread
  rw [hx hcode] at heval
  exact ⟨_, heval, ⟨hconn, rfl, rfl⟩⟩

/-- **Refinement.** From a session that stands at a point of the dialogue, the calls with their results are
    a run of the abstract session, and the session stands where that run has led, as long as each is a
    command with a clean argument and either returns or has a parser that gets past the end of its block
    (`Calls`). One further command ends and is an exchange of the abstract session in its turn, even if
    its parser stops inside the block. -/
theorem calls_refine_dialogue (hworks : Works poco server) {s t : NNTPClientSession π}
    {d : Dialogue π} (hs : Stands s d) {calls : List (Operation × Except Exception (Result α))}
    (hcalls : Lts.Runs (Calls poco server) s calls t) :
    ∃ d', Lts.Runs (Speaks poco server) d calls d' ∧ Stands t d' ∧
      ∀ op : Operation, op.Clean → ∃ x t', (op.run poco).Evals t x t' ∧
        Speaks poco server d' (op, x) (t'.m_socket.peer, t'.activeGroup) := by
  have hrun : ∃ d', Lts.Runs (Speaks poco server) d calls d' ∧ Stands t d' := by
    apply hcalls.simulate Stands _ hs
    rintro s ⟨op, x⟩ t d hs ⟨hclean, hsafe, heval⟩
    obtain ⟨x', t', heval', hspeaks, hconn, htaken⟩ :=
      call_speaks hworks hs.connected hs.unread hclean
    obtain ⟨rfl, rfl⟩ := heval.unique heval'
    rw [hs.state]
    refine ⟨_, hspeaks, hconn, ?_, rfl⟩
    rcases hsafe with ⟨v, hv⟩ | hsafe
    · exact htaken v hv
    · exact call_aligned hworks hs.connected hs.unread hclean hsafe heval
  obtain ⟨d', hspeaks, ht⟩ := hrun
  refine ⟨d', hspeaks, ht, fun op hclean => ?_⟩
  obtain ⟨x, t', heval, hspeaks, _⟩ :=
    call_speaks hworks ht.connected ht.unread hclean
  rw [ht.state]
  exact ⟨x, t', heval, hspeaks⟩

/-- With a parser that accepts everything, any commands can be called one after the other. -/
theorem exists_calls (hworks : Works poco server)
    (hread : ∀ content, ∃ a, (poco.read.run [] content).result = .ok a) {s : NNTPClientSession π}
    (hconn : s.m_socket.Connected) (hunread : s.m_socket.unread = []) {ops : List Operation}
    (hclean : ∀ op ∈ ops, op.Clean) :
    ∃ (calls : List (Operation × Except Exception (Result α))) (t : NNTPClientSession π),
      calls.map Prod.fst = ops ∧ Lts.Runs (Calls poco server) s calls t := by
  induction ops generalizing s with
  | nil => exact ⟨[], s, rfl, .nil⟩
  | cons op ops ih =>
      obtain ⟨hop, hops⟩ := List.forall_mem_cons.mp hclean
      have hsafe : SafeStep poco server s op := safeStep_of_accepts hread s op
      obtain ⟨x, s', heval, _, hconn', _⟩ :=
        call_speaks hworks hconn hunread hop
      have hunread' := call_aligned hworks hconn hunread hop hsafe heval
      obtain ⟨calls, t, hcalled, hrest⟩ := ih hconn' hunread' hops
      exact ⟨(op, x) :: calls, t, congrArg (op :: ·) hcalled,
        .cons ⟨hop, Or.inr hsafe, heval⟩ hrest⟩

/-- A group selected, an article that begins with a stuffed dot read twice, and a STAT. -/
theorem calls_refine_dialogue_accepting :
    let server := Server.accepting [text ".From: me", [], text "body"]
    let poco := Poco.reference server Reference.readAll id
    let ops := [.selectNewsGroup (text "g"), .articleRaw, .articleNumber 5, .stat 5]
    ∃ calls t, calls.map Prod.fst = ops ∧ Lts.Runs (Calls poco server) openedSession calls t ∧
      ∃ d', Lts.Runs (Speaks poco server) (0, ⟨[], 0, 0, 0⟩) calls d' ∧ Stands t d' ∧
        ∀ op : Operation, op.Clean → ∃ x t', (op.run poco).Evals t x t' ∧
          Speaks poco server d' (op, x) (t'.m_socket.peer, t'.activeGroup) := by
  intro server poco ops
  have hworks : Works poco server := .reference (Server.accepting_conforms (by decide))
  have hclean : ∀ op ∈ ops, op.Clean := by decide
  obtain ⟨calls, t, hops, hcalls⟩ := exists_calls hworks
    (fun content => Reference.readAll_result [] content) (s := openedSession) ⟨rfl, rfl⟩ rfl hclean
  exact ⟨calls, t, hops, hcalls, calls_refine_dialogue hworks ⟨⟨rfl, rfl⟩, rfl, rfl⟩ hcalls⟩

end NntpPoco
