import NntpPoco.Session.Mail

/-!
# `Session.Exchange` — commands as exchanges with a server

Every command of a session is one exchange (a command line out, a status line in) followed by what it
does with the answer: `Operation.run_eq`. On the other side, `Response` is what a server may answer,
and `Conforms` says that it answers every command line with one response of the right shape.
`exchange_evals` joins the two for the exchange itself.
-/

namespace NntpPoco

open Lines Prog

/-! ## Responses -/

/-- What a server sends back: a status line, or a status line and a block. -/
inductive Response
  | line (status : Bytes)
  | block (status : Bytes) (ls : List Bytes)
  deriving DecidableEq, Repr

namespace Response

def status : Response → Bytes
  | .line l => l
  | .block l _ => l

/-- What follows the status line. -/
def body : Response → Bytes
  | .line _ => []
  | .block _ ls => encodeBlock ls

/-- The bytes of a response. -/
def encode (r : Response) : Bytes := r.status ++ (crlf ++ r.body)

end Response

/-! ## Operations -/

/-- The commands of a session, with their arguments. -/
inductive Operation
  | capabilities
  | listNewsGroups (wildMat : Bytes)
  | selectNewsGroup (newsgroup : Bytes)
  | articleHeader
  | articleRaw
  | article
  | articleNumber (number : UInt32)
  | stat (article : UInt32)
  deriving DecidableEq, Repr

/-- What the commands return. -/
inductive Result (α : Type)
  | lines (ls : List Bytes)
  | groups (gs : List GroupDesc)
  | active (g : ActiveNewsGroup)
  | article (a : α)
  | verdict (b : Bool)
  deriving DecidableEq, Repr

namespace Operation

open NNTPClientSession

variable {π μ α : Type}

/-- Call the command. -/
def run (poco : Poco π μ α) : Operation → Method π (Result α)
  | .capabilities => .lines <$> NNTPClientSession.capabilities poco
  | .listNewsGroups wildMat => .groups <$> NNTPClientSession.listNewsGroups poco wildMat
  | .selectNewsGroup newsgroup => .active <$> NNTPClientSession.selectNewsGroup poco newsgroup
  | .articleHeader => .lines <$> NNTPClientSession.articleHeader poco
  | .articleRaw => .lines <$> NNTPClientSession.articleRaw poco
  | .article => .article <$> NNTPClientSession.article poco
  | .articleNumber number => .article <$> NNTPClientSession.articleNumber poco number
  | .stat n => .verdict <$> NNTPClientSession.stat poco n

/-- The command line it writes. -/
def line : Operation → Bytes
  | .capabilities => commandLine (text "CAPABILITIES") []
  | .listNewsGroups wildMat => commandLine (text "LIST NEWSGROUPS") wildMat
  | .selectNewsGroup newsgroup => commandLine (text "GROUP") newsgroup
  | .articleHeader => commandLine (text "HEAD") []
  | .articleRaw => commandLine (text "ARTICLE") []
  | .article => commandLine (text "ARTICLE") []
  | .articleNumber number => commandLine (text "ARTICLE") (Bytes.ofUInt number)
  | .stat n => commandLine (text "STAT") (Bytes.ofUInt n)

/-- The call by which it writes it. -/
def send (poco : Poco π μ α) : Operation → Action π Unit
  | .capabilities => poco.sendMessage (text "CAPABILITIES")
  | .listNewsGroups wildMat => poco.sendMessageArg (text "LIST NEWSGROUPS") wildMat
  | .selectNewsGroup newsgroup => poco.sendMessageArg (text "GROUP") newsgroup
  | .articleHeader => poco.sendMessage (text "HEAD")
  | .articleRaw => poco.sendMessage (text "ARTICLE")
  | .article => poco.sendMessage (text "ARTICLE")
  | .articleNumber number => poco.sendMessageArg (text "ARTICLE") (Bytes.ofUInt number)
  | .stat n => poco.sendMessageArg (text "STAT") (Bytes.ofUInt n)

/-- Whether a block follows an accepted status line. -/
def hasBlock : Operation → Bool
  | .selectNewsGroup _ => false
  | .stat _ => false
  | _ => true

/-- The status it accepts. -/
def accepts : Operation → Int → Bool
  | .capabilities => isPositiveInformation
  | _ => isPositiveCompletion

/-- Whether it hands the block to `NewsArticle::read`. -/
def parses : Operation → Bool
  | .article => true
  | .articleNumber _ => true
  | _ => false

/-- A response a server may give to it: one status line, and a block behind it where the command has
    one and is accepted. -/
inductive Answers : Operation → Response → Prop
  | single {op l} (hl : StatusLine l) (hop : op.hasBlock = false) : Answers op (.line l)
  | refused {op l} (hl : StatusLine l) (hop : op.hasBlock = true)
      (hstatus : op.accepts (statusOf l) = false) : Answers op (.line l)
  | accepted {op l ls} (hl : StatusLine l) (hop : op.hasBlock = true)
      (hstatus : op.accepts (statusOf l) = true) (hls : ∀ x ∈ ls, BreakFree x) :
      Answers op (.block l ls)

theorem Answers.statusLine {op : Operation} {r : Response} (h : op.Answers r) :
    StatusLine r.status := by
  cases h with
  | single hl _ => exact hl
  | refused hl _ _ => exact hl
  | accepted hl _ _ _ => exact hl

end Operation

/-- An operation whose string argument, if it has one, is free of CR and LF. -/
def Operation.Clean : Operation → Prop
  | .listNewsGroups wildMat => BreakFree wildMat
  | .selectNewsGroup newsgroup => BreakFree newsgroup
  | _ => True

instance (op : Operation) : Decidable op.Clean :=
  match op with
  | .listNewsGroups wildMat => inferInstanceAs (Decidable (BreakFree wildMat))
  | .selectNewsGroup newsgroup => inferInstanceAs (Decidable (BreakFree newsgroup))
  | .capabilities | .articleHeader | .articleRaw | .article | .articleNumber _ | .stat _ =>
    inferInstanceAs (Decidable True)

/-- A server that answers each command line, whatever its state, with exactly one response, and keeps
    the connection open. -/
def Server.Conforms {π : Type} (server : Server π) : Prop :=
  ∀ (p : π) (op : Operation), op.Clean →
    ∃ r, op.Answers r ∧ (server.react p op.line).2 = (r.encode, false)

/-- A server that accepts every command, with the block `ls` where there is one. It goes by the first
    letter of the command. -/
def Server.accepting (ls : List Bytes) : Server ℕ where
  react p line :=
    let r : Response :=
      if line.head? = (text "C").head? then .block (text "101 capabilities") ls
      else if line.head? = (text "G").head? then .line (text "211 9 1 9 group")
      else if line.head? = (text "S").head? then .line (text "223 exists")
      else .block (text "220 follows") ls
    (p + 1, r.encode, false)

theorem Server.accepting_conforms {ls : List Bytes} (hls : ∀ l ∈ ls, BreakFree l) :
    (Server.accepting ls).Conforms := by
  intro p op _
  cases op with
  | capabilities =>
      exact ⟨.block (text "101 capabilities") ls, .accepted ⟨by decide, rfl⟩ rfl rfl hls, rfl⟩
  | selectNewsGroup newsgroup =>
      exact ⟨.line (text "211 9 1 9 group"), .single ⟨by decide, rfl⟩ rfl, rfl⟩
  | stat n => exact ⟨.line (text "223 exists"), .single ⟨by decide, rfl⟩ rfl, rfl⟩
  | _ => exact ⟨.block (text "220 follows") ls, .accepted ⟨by decide, rfl⟩ rfl rfl hls, rfl⟩

/-- A server that lists the groups `ls` and has no article in any of them. -/
def Server.emptyGroups (ls : List Bytes) : Server ℕ where
  react p line :=
    let r : Response :=
      if line.head? = (text "L").head? then .block (text "215 follows") ls
      else if line.head? = (text "G").head? then .line (text "211 0 0 0 group")
      else .line (text "423 no such article")
    (p + 1, r.encode, false)

/-- A server that gives the same answer to every command, whatever it is. -/
def Server.saying (answer : Bytes) (closes : Bool) : Server ℕ where
  react p _ := (p + 1, answer, closes)

/-- A session on a connection whose server has sent its greeting. -/
def greetedSession : NNTPClientSession ℕ :=
  .ofSocket ⟨text "200 ready\r\n", false, [], false, 0⟩

/-- The same session once `open()` has read the greeting. -/
def openedSession : NNTPClientSession ℕ :=
  { greetedSession with
    m_socket := { greetedSession.m_socket with unread := [] }
    m_isOpen := true
    history := [.status 200 (text "200 ready")] }

/-- The server in state `p` answers the operations `ops` with the responses `rs`, one each and in
    order, and is then in state `q`. -/
inductive Server.Conversation {π : Type} (server : Server π) :
    π → List Operation → List Response → π → Prop
  | nil {p} : Conversation server p [] [] p
  | cons {p op ops r rs p' q} (hr : op.Answers r)
      (hreact : server.react p op.line = (p', r.encode, false))
      (hrest : Conversation server p' ops rs q) :
      Conversation server p (op :: ops) (r :: rs) q

/-- The history of operations that each read the status line of their own response. -/
inductive Recorded : List Operation → List Response → List Event → Prop
  | nil : Recorded [] [] []
  | cons {op ops r rs events} (response : Bytes)
      (htext : 4 ≤ r.status.length → response = r.status) (hrest : Recorded ops rs events) :
      Recorded (op :: ops) (r :: rs)
        (.sent op.line :: .status (statusOf r.status) response :: events)

/-- The operations called one after the other, each from a state in which `ok` holds of it, whether
    they return or throw. -/
inductive Run {π μ α : Type} (poco : Poco π μ α) (ok : NNTPClientSession π → Operation → Prop) :
    NNTPClientSession π → List Operation → NNTPClientSession π → Prop
  | nil {s} : Run poco ok s [] s
  | cons {s op ops x s' t} (hok : ok s op) (hop : (op.run poco).Evals s x s')
      (hrest : Run poco ok s' ops t) : Run poco ok s (op :: ops) t

/-- The operations run one after the other, as far as the fuel goes. -/
def runAll {π μ α : Type} (poco : Poco π μ α) (fuel : ℕ) :
    NNTPClientSession π → List Operation → Option (NNTPClientSession π)
  | s, [] => some s
  | s, op :: ops =>
    match (op.run poco).run fuel s with
    | some (_, s') => runAll poco fuel s' ops
    | none => none

theorem run_of_runAll {π μ α : Type} {poco : Poco π μ α} {fuel : ℕ} {s t : NNTPClientSession π}
    {ops : List Operation} (h : runAll poco fuel s ops = some t) :
    Run poco (fun _ _ => True) s ops t := by
  induction ops generalizing s with
  | nil =>
      obtain rfl : s = t := Option.some.inj h
      exact .nil
  | cons op ops ih =>
      simp only [runAll] at h
      cases hop : (op.run poco).run fuel s with
      | none => simp [hop] at h
      | some y =>
          obtain ⟨x, s'⟩ := y
          simp only [hop] at h
          exact .cons trivial ⟨fuel, hop⟩ (ih h)

/-! ## The exchange -/

namespace NNTPClientSession

variable {π μ α : Type} {poco : Poco π μ α} {server : Server π}

/-- A command line out, a status line in. -/
def exchange (poco : Poco π μ α) (send : Action π Unit) (line : Bytes) : Method π (Int × Bytes) := do
  call send (sentEvent line)
  call poco.receiveStatusMessage statusEvent

theorem sendCommand_eq (command : Bytes) :
    sendCommand poco command = exchange poco (poco.sendMessage command) (commandLine command []) :=
  rfl

theorem sendCommandArg_eq (command arg : Bytes) :
    sendCommandArg poco command arg =
      exchange poco (poco.sendMessageArg command arg) (commandLine command arg) := rfl

/-- What an exchange can come to. -/
theorem exchange_cases {send : Action π Unit} {line : Bytes} {s t : NNTPClientSession π}
    {r : Except Exception (Int × Bytes)} (h : (exchange poco send line).Evals s r t) :
    (∃ e socket, send s.m_socket = (.error e, socket) ∧ r = .error e ∧
      t = s.after socket [.sendFailed line]) ∨
    (∃ sent socket, send s.m_socket = (.ok (), sent) ∧
      poco.receiveStatusMessage sent = (r, socket) ∧
      t = s.after socket (.sent line :: statusEvent r)) := by
  unfold exchange at h
  rcases evals_bind.mp h with ⟨e, hsend, rfl⟩ | ⟨_, s', hsend, hreceive⟩
  · left
    obtain ⟨hr, ht⟩ := evals_call.mp hsend
    refine ⟨e, (send s.m_socket).2, Prod.ext hr.symm rfl, rfl, ?_⟩
    rw [ht, ← hr]
    rfl
  · right
    obtain ⟨hr, rfl⟩ := evals_call.mp hsend
    obtain ⟨hr', rfl⟩ := evals_call.mp hreceive
    refine ⟨(send s.m_socket).2, _, Prod.ext hr.symm rfl, Prod.ext hr'.symm rfl, ?_⟩
    rw [← hr', ← hr, after_after]
    rfl

/-- The session once its command line has gone out, been answered, and the status line been read. -/
def answered (server : Server π) (s : NNTPClientSession π) (line rest : Bytes) (status : Int)
    (response : Bytes) : NNTPClientSession π :=
  s.after { server.deliver line s.m_socket with unread := rest } [.sent line, .status status response]

/-- **An exchange on a connection with nothing unread** reads the status line of its own response, and
    leaves what follows it. -/
theorem exchange_evals (hreads : poco.Reads) {send : Action π Unit} {line : Bytes}
    {s : NNTPClientSession π}
    (hsend : send s.m_socket = (.ok (), server.deliver line s.m_socket))
    (hunread : s.m_socket.unread = []) {l rest : Bytes} (hl : StatusLine l)
    (hreact : (server.react s.m_socket.peer line).2.1 = l ++ (crlf ++ rest)) :
    ∃ response, (4 ≤ l.length → response = l) ∧
      (exchange poco send line).Evals s (.ok (statusOf l, response))
        (s.answered server line rest (statusOf l) response) := by
  have hdelivered : (server.deliver line s.m_socket).unread = l ++ (crlf ++ rest) := by
    simp [Server.deliver, hunread, hreact]
  obtain ⟨response, hreceive, htext⟩ :=
    hreads.receiveStatusMessage (server.deliver line s.m_socket) l rest hl hdelivered
  refine ⟨response, htext, ?_⟩
  -- the command line goes out, and the peer reacts to it
  have hsent : (call send (sentEvent line)).Evals s (.ok ())
      (s.after (server.deliver line s.m_socket) [.sent line]) := call_evals hsend
  -- the first line of its answer is the status line
  have hread : (call poco.receiveStatusMessage statusEvent).Evals
      (s.after (server.deliver line s.m_socket) [.sent line]) (.ok (statusOf l, response))
      ((s.after (server.deliver line s.m_socket) [.sent line]).after
        { server.deliver line s.m_socket with unread := rest } [.status (statusOf l) response]) :=
    call_evals hreceive
  rw [after_after] at hread
  exact hsent.bind hread

end NNTPClientSession

end NntpPoco
