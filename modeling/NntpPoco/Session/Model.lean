import NntpPoco.Poco.Interface

/-!
# `Session.Model` — `NNTPClientSession`

`src/nntp/NNTPClientSession/NNTPClientSession.cpp`, function by function. A member function is a
`Prog Exception (NNTPClientSession π)`: it mutates the session, and it returns or throws. The session
carries one field the class does not have, the ghost `history` of what went over the socket; no
function reads it.
-/

namespace NntpPoco

open Lines

/-! ## Data -/

structure ActiveNewsGroup where
  newsGroup : Bytes
  numArticles : UInt32
  lowArticle : UInt32
  highArticle : UInt32
  deriving DecidableEq, Repr

abbrev GroupDesc := Bytes × Bytes

/-- What a session did on its socket: a command line went out or failed to, a status line came in or
    failed to. -/
inductive Event
  | sent (line : Bytes)
  | sendFailed (line : Bytes)
  | status (code : Int) (response : Bytes)
  | statusFailed
  deriving DecidableEq, Repr

structure NNTPClientSession (π : Type) where
  m_socket : DialogSocket π
  m_isOpen : Bool
  m_newsGroup : Bytes
  m_numArticles : UInt32
  m_lowArticle : UInt32
  m_highArticle : UInt32
  history : List Event
  deriving DecidableEq, Repr

/-- The bytes of the command line `command arg`. -/
def commandLine (command arg : Bytes) : Bytes :=
  command ++ (if arg = [] then [] else 32 :: arg) ++ crlf

namespace NNTPClientSession

variable {π μ α β : Type} (poco : Poco π μ α)

/-- `NNTPClientSession(const StreamSocket&)`. -/
def ofSocket (socket : DialogSocket π) : NNTPClientSession π where
  m_socket := socket
  m_isOpen := false
  m_newsGroup := []
  m_numArticles := 0
  m_lowArticle := 0
  m_highArticle := 0
  history := []

/-- A member function of a session. -/
abbrev Method (π β : Type) := Prog Exception (NNTPClientSession π) β

/-- `m_socket.f()`, with the events it leaves in the ghost history. -/
def call (f : Action π β) (events : Except Exception β → List Event) : Method π β :=
  Prog.lift fun s =>
    ((f s.m_socket).1,
      { s with m_socket := (f s.m_socket).2, history := s.history ++ events (f s.m_socket).1 })

def sentEvent (line : Bytes) : Except Exception Unit → List Event
  | .ok _ => [.sent line]
  | .error _ => [.sendFailed line]

def statusEvent : Except Exception (Int × Bytes) → List Event
  | .ok (code, response) => [.status code response]
  | .error _ => [.statusFailed]

/-! ## Status classes -/

def isPositiveCompletion (status : Int) : Bool := status.tdiv 100 == 2

def isPositiveInformation (status : Int) : Bool := status.tdiv 100 == 1

/-! ## `DialogInputStream` and the stream over it -/

/-- `DialogStreamBuf::readFromDevice`. -/
def readFromDevice : Method π (Option UInt8) := call poco.get fun _ => []

/-- A `MailInputStream` the code is reading from: its state, whether the `DialogInputStream` below it
    is still `good()`, and whether it has met the end of file itself. -/
structure MailInputStream (μ : Type) where
  state : μ
  below : Bool
  eof : Bool

def MailInputStream.good {μ : Type} (mis : MailInputStream μ) : Bool := !mis.eof

/-- `DialogInputStream sis(m_socket); MailInputStream mis(sis);` -/
def openMail : MailInputStream μ := ⟨poco.mailInputStream.init, true, false⟩

/-- `sis.get()`: what `readFromDevice` throws stays inside the `istream`, which is then no longer
    `good()`; a stream that is not `good()` gives an end of file and leaves the device alone. -/
def sisGet (below : Bool) : Method π (Option UInt8) := do
  if below then
    let b ← (readFromDevice poco).attempt
    match b with
    | .ok b => pure b
    | .error _ => pure none
  else
    pure none

/-- `mis.get()`. -/
def misGet (mis : MailInputStream μ) : Method π (Option UInt8 × MailInputStream μ) :=
  Prog.loop (fun (x : μ × Bool) => do
    match poco.mailInputStream.next x.1 with
    | .give c m => pure (.inr (c, ⟨m, x.2, c.isNone⟩))
    | .take k =>
      let b ← sisGet poco x.2
      pure (.inl (k b, x.2 && b.isSome))) (mis.state, mis.below)

/-- `article.read(mis)`: the parser is given one `mis.get()` after the other until it stops. -/
def readArticle (mis : MailInputStream μ) : Method π (α × MailInputStream μ) :=
  Prog.loop (fun (x : Bytes × MailInputStream μ) => do
    match poco.read.step x.1 with
    | some r =>
      let article ← Prog.ofExcept r
      pure (.inr (article, x.2))
    | none =>
      let c ← misGet poco x.2
      match c.1 with
      | some b => pure (.inl (x.1 ++ [b], c.2))
      | none =>
        let article ← Prog.ofExcept (poco.read.finish x.1)
        pure (.inr (article, c.2))) ([], mis)

/-- `while (mis.good()) mis.get();` -/
def drain (mis : MailInputStream μ) : Method π Unit :=
  Prog.loop (fun mis => do
    if mis.good then
      let c ← misGet poco mis
      pure (.inl c.2)
    else
      pure (.inr ())) mis

/-! ## Commands -/

def sendCommand (command : Bytes) : Method π (Int × Bytes) := do
  call (poco.sendMessage command) (sentEvent (commandLine command []))
  call poco.receiveStatusMessage statusEvent

def sendCommandArg (command arg : Bytes) : Method π (Int × Bytes) := do
  call (poco.sendMessageArg command arg) (sentEvent (commandLine command arg))
  call poco.receiveStatusMessage statusEvent

/-- `open()`. -/
def openSession : Method π Unit := do
  let s ← Prog.get
  if !s.m_isOpen then
    let (status, response) ← call poco.receiveStatusMessage statusEvent
    if !isPositiveCompletion status then
      Prog.throw (.nntp "The news service is unavailable" response status)
    else
      Prog.modify fun s => { s with m_isOpen := true }
  else
    pure ()

/-- `close()`. -/
def closeSession : Method π Unit := do
  let s ← Prog.get
  if s.m_isOpen then
    -- where this throws, the session stays open
    let _ ← sendCommand poco (text "QUIT")
    Prog.modify fun s => { s with m_socket := poco.close s.m_socket }
    Prog.modify fun s => { s with m_isOpen := false }
  else
    pure ()

/-- `~NNTPClientSession()`. -/
def destroy : Method π Unit := do
  let _ ← (closeSession poco).attempt
  pure ()

/-- The loop of `multiLineResponse`: `line` has been received, `response` holds the lines before it. -/
def multiLineResponse : Method π (List Bytes) := do
  let first ← call poco.receiveMessage fun _ => []
  Prog.loop (fun (x : List Bytes × Bytes) => do
    if x.2 ≠ text "." then
      -- what `receiveMessage` returns is not looked at
      let next ← call poco.receiveMessage fun _ => []
      pure (.inl (x.1 ++ [x.2], next.2))
    else
      pure (.inr x.1)) ([], first.2)

/-- The common shape of `capabilities`, `articleHeader` and `articleRaw`: a command without argument
    and, when its status is accepted, a block. -/
def blockCommand (accepts : Int → Bool) (command : Bytes) (message : String) :
    Method π (List Bytes) := do
  let (status, response) ← sendCommand poco command
  if !accepts status then
    Prog.throw (.nntp message response status)
  else
    multiLineResponse poco

def capabilities : Method π (List Bytes) :=
  blockCommand poco isPositiveInformation (text "CAPABILITIES") "Cannot get capabilities"

/-- The lambda of `listNewsGroups`: the name, and what follows the white space after it. -/
def groupDesc (line : Bytes) : Except Exception GroupDesc :=
  match line.findFirstOf (text " \t") 0 with
  -- no white space: the line is the name
  | none => .ok (line, [])
  | some pos => do
    let name ← line.substr 0 pos
    let description ← line.substrFrom (line.findFirstNotOf (text " \t") (pos + 1))
    return (name, description)

def listNewsGroups (wildMat : Bytes) : Method π (List GroupDesc) := do
  let (status, response) ← sendCommandArg poco (text "LIST NEWSGROUPS") wildMat
  if !isPositiveCompletion status then
    Prog.throw (.nntp "Cannot list newsgroups" response status)
  else
    let groups ← multiLineResponse poco
    Prog.ofExcept (groups.mapM groupDesc)

def selectNewsGroup (newsgroup : Bytes) : Method π ActiveNewsGroup := do
  let (status, response) ← sendCommandArg poco (text "GROUP") newsgroup
  if !isPositiveCompletion status then
    Prog.throw (.nntp "Cannot set newsgroup" response status)
  else
    let groupInfo := poco.tokenize response (text " ")
    -- each member is assigned as soon as its number has been read
    Prog.modify fun s => { s with m_newsGroup := newsgroup }
    let numArticles ← Prog.ofExcept (token groupInfo 1 >>= poco.parseUnsigned)
    Prog.modify fun s => { s with m_numArticles := numArticles }
    let lowArticle ← Prog.ofExcept (token groupInfo 2 >>= poco.parseUnsigned)
    Prog.modify fun s => { s with m_lowArticle := lowArticle }
    let highArticle ← Prog.ofExcept (token groupInfo 3 >>= poco.parseUnsigned)
    Prog.modify fun s => { s with m_highArticle := highArticle }
    let s ← Prog.get
    pure ⟨s.m_newsGroup, s.m_numArticles, s.m_lowArticle, s.m_highArticle⟩

def articleHeader : Method π (List Bytes) :=
  blockCommand poco isPositiveCompletion (text "HEAD") "Cannot get article header"

def articleRaw : Method π (List Bytes) :=
  blockCommand poco isPositiveCompletion (text "ARTICLE") "Cannot get article body"

/-- What both overloads of `article` do with the status and the response to their command. -/
def articleBody (status : Int) (response : Bytes) : Method π α :=
  if !isPositiveCompletion status then
    Prog.throw (.nntp "Cannot get article body" response status)
  else do
    -- where the parser throws, the rest of the block is not drained
    let (article, mis) ← readArticle poco (openMail poco)
    drain poco mis
    pure article

/-- `article(NewsArticle&)`: the argument it fills is what it returns here. -/
def article : Method π α := do
  let (status, response) ← sendCommand poco (text "ARTICLE")
  articleBody poco status response

def stat (article : UInt32) : Method π Bool := do
  let (status, _) ← sendCommandArg poco (text "STAT") (Bytes.ofUInt article)
  pure (isPositiveCompletion status)

/-- `article(uint_t, NewsArticle&)`. -/
def articleNumber (number : UInt32) : Method π α := do
  let (status, response) ← sendCommandArg poco (text "ARTICLE") (Bytes.ofUInt number)
  articleBody poco status response

end NNTPClientSession

end NntpPoco
