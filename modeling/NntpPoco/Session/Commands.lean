import NntpPoco.Session.Exchange

/-!
# `Session.Commands` — what each command does with its answer

A command is `exchange >>= handle` (`Operation.run_eq`). The tails of the commands are named here, and
each has its specification: `blockTail_evals` and `listTail_evals` for the line-based blocks,
`groupTail_frame` and `statTail_evals` for the single lines, `articleTail` (the `articleBody` of
`Session.Mail`) for the stream-based block. `Operation.handle_evals` puts them together: given its own
response, a command takes exactly the rest of that response.
-/

namespace NntpPoco

open Lines Prog Pull

namespace NNTPClientSession

variable {π μ α : Type} {poco : Poco π μ α}

/-! ## The tails -/

/-- `blockCommand` after its status line. -/
def blockTail (poco : Poco π μ α) (accepts : Int → Bool) (message : String) (answer : Int × Bytes) :
    Method π (List Bytes) :=
  if !accepts answer.1 then
    throw (.nntp message answer.2 answer.1)
  else
    multiLineResponse poco

/-- `listNewsGroups` after its status line. -/
def listTail (poco : Poco π μ α) (answer : Int × Bytes) : Method π (List GroupDesc) := do
  if !isPositiveCompletion answer.1 then
    throw (.nntp "Cannot list newsgroups" answer.2 answer.1)
  else
    let groups ← multiLineResponse poco
    ofExcept (groups.mapM groupDesc)

/-- `selectNewsGroup` after its status line. -/
def groupTail (poco : Poco π μ α) (newsgroup : Bytes) (answer : Int × Bytes) :
    Method π ActiveNewsGroup := do
  if !isPositiveCompletion answer.1 then
    throw (.nntp "Cannot set newsgroup" answer.2 answer.1)
  else
    let groupInfo := poco.tokenize answer.2 (text " ")
    modify fun s => { s with m_newsGroup := newsgroup }
    let numArticles ← ofExcept (token groupInfo 1 >>= poco.parseUnsigned)
    modify fun s => { s with m_numArticles := numArticles }
    let lowArticle ← ofExcept (token groupInfo 2 >>= poco.parseUnsigned)
    modify fun s => { s with m_lowArticle := lowArticle }
    let highArticle ← ofExcept (token groupInfo 3 >>= poco.parseUnsigned)
    modify fun s => { s with m_highArticle := highArticle }
    let s ← get
    pure ⟨s.m_newsGroup, s.m_numArticles, s.m_lowArticle, s.m_highArticle⟩

/-- `article` after its status line. -/
def articleTail (poco : Poco π μ α) (answer : Int × Bytes) : Method π α :=
  articleBody poco answer.1 answer.2

/-- `stat` after its status line. -/
def statTail (answer : Int × Bytes) : Method π Bool := pure (isPositiveCompletion answer.1)

theorem selectNewsGroup_eq (newsgroup : Bytes) :
    selectNewsGroup poco newsgroup =
      sendCommandArg poco (text "GROUP") newsgroup >>= groupTail poco newsgroup := rfl

end NNTPClientSession

namespace Operation

open NNTPClientSession

variable {π μ α : Type} {poco : Poco π μ α}

/-- What a command does with its answer. -/
def handle (poco : Poco π μ α) : Operation → Int × Bytes → Method π (Result α)
  | .capabilities => fun answer =>
    .lines <$> blockTail poco isPositiveInformation "Cannot get capabilities" answer
  | .listNewsGroups _ => fun answer => .groups <$> listTail poco answer
  | .selectNewsGroup newsgroup => fun answer => .active <$> groupTail poco newsgroup answer
  | .articleHeader => fun answer =>
    .lines <$> blockTail poco isPositiveCompletion "Cannot get article header" answer
  | .articleRaw => fun answer =>
    .lines <$> blockTail poco isPositiveCompletion "Cannot get article body" answer
  | .article => fun answer => .article <$> articleTail poco answer
  | .articleNumber _ => fun answer => .article <$> articleTail poco answer
  | .stat _ => fun answer => .verdict <$> statTail answer

/-- **Every command is an exchange and what it does with the answer.** -/
theorem run_eq (op : Operation) :
    op.run poco = exchange poco (op.send poco) op.line >>= op.handle poco := by
  cases op <;> exact map_bind _ _ _

/-- `sendMessage` as every operation uses it. -/
theorem send_eq {server : Server π} (hwrites : poco.Writes server) (op : Operation)
    {s : DialogSocket π} (hs : s.Connected) :
    op.send poco s = (.ok (), server.deliver op.line s) := by
  cases op with
  | capabilities => exact hwrites.sendMessage _ s hs
  | listNewsGroups wildMat => exact hwrites.sendMessageArg _ _ s hs
  | selectNewsGroup newsgroup => exact hwrites.sendMessageArg _ _ s hs
  | articleHeader => exact hwrites.sendMessage _ s hs
  | articleRaw => exact hwrites.sendMessage _ s hs
  | article => exact hwrites.sendMessage _ s hs
  | articleNumber number => exact hwrites.sendMessageArg _ _ s hs
  | stat n => exact hwrites.sendMessageArg _ _ s hs

end Operation

/-! ## Specifications of the tails -/

namespace NNTPClientSession

variable {π μ α : Type} {poco : Poco π μ α} {s : NNTPClientSession π}

theorem blockTail_refused {accepts : Int → Bool} {status : Int} (h : accepts status = false)
    (message : String) (response : Bytes) :
    (blockTail poco accepts message (status, response)).Evals s
      (.error (.nntp message response status)) s := by
  simp [blockTail, h]

theorem blockTail_evals (hreads : poco.Reads) {accepts : Int → Bool} {status : Int}
    (h : accepts status = true) {ls : List Bytes} (hls : ∀ l ∈ ls, BreakFree l) {rest : Bytes}
    (hs : s.m_socket.unread = encodeBlock ls ++ rest) (message : String) (response : Bytes) :
    (blockTail poco accepts message (status, response)).Evals s (.ok (ls.map stuff))
      (s.withUnread rest) := by
  simp only [blockTail, h, Bool.not_true, Bool.false_eq_true, if_false]
  exact multiLineResponse_evals hreads hls hs

theorem listTail_refused {status : Int} (h : isPositiveCompletion status = false)
    (response : Bytes) :
    (listTail poco (status, response)).Evals s
      (.error (.nntp "Cannot list newsgroups" response status)) s := by
  simp [listTail, h]

theorem listTail_evals (hreads : poco.Reads) {status : Int}
    (h : isPositiveCompletion status = true) {ls : List Bytes} (hls : ∀ l ∈ ls, BreakFree l)
    {rest : Bytes} (hs : s.m_socket.unread = encodeBlock ls ++ rest) (response : Bytes) :
    (listTail poco (status, response)).Evals s ((ls.map stuff).mapM groupDesc)
      (s.withUnread rest) := by
  simp only [listTail, h, Bool.not_true, Bool.false_eq_true, if_false]
  exact (multiLineResponse_evals hreads hls hs).bind (by simp)

theorem statTail_evals (status : Int) (response : Bytes) :
    (statTail (status, response)).Evals s (.ok (isPositiveCompletion status)) s := by
  simp [statTail]

theorem groupTail_refused {status : Int} (h : isPositiveCompletion status = false)
    (newsgroup response : Bytes) :
    (groupTail poco newsgroup (status, response)).Evals s
      (.error (.nntp "Cannot set newsgroup" response status)) s := by
  simp [groupTail, h]

/-- The number in field `index` of a GROUP response. -/
def groupField (poco : Poco π μ α) (response : Bytes) (index : ℕ) : Except Exception UInt32 :=
  token (poco.tokenize response (text " ")) index >>= poco.parseUnsigned

/-- Where an accepted GROUP response leads: the members are assigned one by one, and the first field
    that is missing or is not a number ends it. -/
def groupOutcome (poco : Poco π μ α) (newsgroup response : Bytes) (s : NNTPClientSession π) :
    Except Exception ActiveNewsGroup × NNTPClientSession π :=
  match groupField poco response 1 with
  | .error e => (.error e, { s with m_newsGroup := newsgroup })
  | .ok numArticles =>
    match groupField poco response 2 with
    | .error e => (.error e, { s with m_newsGroup := newsgroup, m_numArticles := numArticles })
    | .ok lowArticle =>
      match groupField poco response 3 with
      | .error e =>
        (.error e,
          { s with m_newsGroup := newsgroup, m_numArticles := numArticles, m_lowArticle := lowArticle })
      | .ok highArticle =>
        (.ok ⟨newsgroup, numArticles, lowArticle, highArticle⟩,
          { s with m_newsGroup := newsgroup, m_numArticles := numArticles, m_lowArticle := lowArticle,
                   m_highArticle := highArticle })

theorem groupTail_accepted (poco : Poco π μ α) {status : Int} (h : isPositiveCompletion status = true)
    (newsgroup response : Bytes) :
    (groupTail poco newsgroup (status, response)).Evals s
      (groupOutcome poco newsgroup response s).1 (groupOutcome poco newsgroup response s).2 := by
  have hfield : ∀ index, token (poco.tokenize response (text " ")) index >>= poco.parseUnsigned =
      groupField poco response index := fun _ => rfl
  simp only [groupTail, h, Bool.not_true, Bool.false_eq_true, if_false, hfield, groupOutcome]
  cases h1 : groupField poco response 1 with
  | error e => simp [evals_bind]
  | ok numArticles =>
      cases h2 : groupField poco response 2 with
      | error e => simp [evals_bind]
      | ok lowArticle =>
          cases h3 : groupField poco response 3 with
          | error e => simp [evals_bind]
          | ok highArticle => simp [evals_bind]

/-- An accepted GROUP response changes the four group members at most. -/
theorem groupOutcome_frame (poco : Poco π μ α) (newsgroup response : Bytes)
    (s : NNTPClientSession π) :
    (groupOutcome poco newsgroup response s).2.m_socket = s.m_socket ∧
    (groupOutcome poco newsgroup response s).2.history = s.history ∧
    (groupOutcome poco newsgroup response s).2.m_isOpen = s.m_isOpen := by
  unfold groupOutcome
  cases groupField poco response 1 with
  | error e => exact ⟨rfl, rfl, rfl⟩
  | ok numArticles =>
      cases groupField poco response 2 with
      | error e => exact ⟨rfl, rfl, rfl⟩
      | ok lowArticle =>
          cases groupField poco response 3 with
          | error e => exact ⟨rfl, rfl, rfl⟩
          | ok highArticle => exact ⟨rfl, rfl, rfl⟩

/-- The group returned has the name it was asked for. -/
theorem groupOutcome_newsGroup {newsgroup response : Bytes} {g : ActiveNewsGroup}
    (h : (groupOutcome poco newsgroup response s).1 = .ok g) : g.newsGroup = newsgroup := by
  unfold groupOutcome at h
  cases h1 : groupField poco response 1 with
  | error e => simp [h1] at h
  | ok numArticles =>
      cases h2 : groupField poco response 2 with
      | error e => simp [h1, h2] at h
      | ok lowArticle =>
          cases h3 : groupField poco response 3 with
          | error e => simp [h1, h2, h3] at h
          | ok highArticle =>
              rw [h1, h2, h3] at h
              rw [← Except.ok.inj h]

/-- `selectNewsGroup`, once it has its answer, ends and leaves the connection alone. -/
theorem groupTail_frame (poco : Poco π μ α) (newsgroup : Bytes) (answer : Int × Bytes)
    (s : NNTPClientSession π) :
    ∃ x t, (groupTail poco newsgroup answer).Evals s x t ∧ t.m_socket = s.m_socket ∧
      t.history = s.history := by
  obtain ⟨status, response⟩ := answer
  cases h : isPositiveCompletion status with
  | false => exact ⟨_, s, groupTail_refused h newsgroup response, rfl, rfl⟩
  | true =>
      obtain ⟨hsocket, hhistory, _⟩ := groupOutcome_frame poco newsgroup response s
      exact ⟨_, _, groupTail_accepted poco h newsgroup response, hsocket, hhistory⟩

end NNTPClientSession

/-! ## A parser that gets past the end of its block -/

namespace Poco

variable {π μ α : Type} (poco : Poco π μ α)

/-- On the stream `raw`, whose block ends where `rest` begins, `NewsArticle::read` returns, or throws
    only once the `MailInputStream` has taken the block's last line: because it was shown the end of
    file, or because the letters it asked for had the stream look that far. -/
def ReadTakesBlock (closed : Bool) (raw rest : Bytes) : Prop :=
  ∀ content, poco.mailInputStream.Feeds closed poco.mailInputStream.init raw content rest →
    (∃ article, (poco.read.run [] content).result = .ok article) ∨
    (poco.read.run [] content).atEnd = true ∨
    ∃ m, poco.mailInputStream.Delivers closed poco.mailInputStream.init raw
      (poco.read.run [] content).taken m rest

end Poco

namespace NNTPClientSession

variable {π μ α : Type} {poco : Poco π μ α} {s : NNTPClientSession π} {closed : Bool}
  {raw rest : Bytes}

/-- `article`, given an accepted response, ends with exactly that response taken, if its parser gets
    past the end of the block. -/
theorem articleTail_evals (hreads : poco.Reads) (hcut : closed = true → poco.ReadsCut)
    (hclosed : s.m_socket.peerClosed = closed) (hraw : s.m_socket.unread = raw) {status : Int}
    (h : isPositiveCompletion status = true) {content : Bytes}
    (hf : poco.mailInputStream.Feeds closed poco.mailInputStream.init raw content rest)
    (hread : poco.ReadTakesBlock closed raw rest) (response : Bytes) :
    ∃ x, (articleTail poco (status, response)).Evals s x (s.withUnread rest) := by
  subst hclosed hraw
  cases hresult : (poco.read.run [] content).result with
  | ok article => exact ⟨_, articleBody_returns response hreads hcut h hf hresult⟩
  | error e =>
      obtain ⟨raw₁, heval, hend, hmid⟩ :=
        articleBody_throws response hreads hcut h hf hresult
      have hraw : raw₁ = rest := by
        -- the parser got past the end of the block, so all of it is gone
        rcases hread content hf with ⟨article, hok⟩ | hat | ⟨m, hdel⟩
        · rw [hresult] at hok
          cases hok
        · exact hend hat
        · cases hat : (poco.read.run [] content).atEnd with
          | true => exact hend hat
          | false =>
              obtain ⟨m₁, hdel'⟩ := hmid hat
              exact (hdel'.unique hdel).2
      exact ⟨_, hraw ▸ heval⟩

/-- **What `article` hands to the parser** are the lines the server has encoded: given an accepted
    response it comes to what the parser makes of their text, wherever the parser stops, and where the
    parser returns it leaves what follows the block. -/
theorem articleTail_reads (hreads : poco.Reads) (hblocks : poco.ReadsBlocks)
    (hunstuffs : poco.Unstuffs) (hcut : s.m_socket.peerClosed = true → poco.ReadsCut) {status : Int}
    (h : isPositiveCompletion status = true) {ls : List Bytes} (hls : ∀ l ∈ ls, BreakFree l)
    (hs : s.m_socket.unread = encodeBlock ls ++ rest) (response : Bytes) :
    ∃ content left, Poco.TextOf ls content ∧ (articleTail poco (status, response)).Evals s
        (poco.read.run [] content).result (s.withUnread left) ∧
      ∀ a, (poco.read.run [] content).result = .ok a → left = rest := by
  obtain ⟨content, hf⟩ := hblocks s.m_socket.peerClosed ls rest hls
  have htext := hunstuffs s.m_socket.peerClosed ls rest hls content rest hf
  rw [← hs] at hf
  cases hresult : (poco.read.run [] content).result with
  | ok article =>
      have hreturns := articleBody_returns response hreads hcut h hf hresult
      exact ⟨content, rest, htext, hresult ▸ hreturns, fun _ _ => rfl⟩
  | error e =>
      obtain ⟨left, hthrows, _⟩ := articleBody_throws response hreads hcut h hf hresult
      refine ⟨content, left, htext, hresult ▸ hthrows, fun a ha => ?_⟩
      rw [hresult] at ha
      exact absurd ha (by simp)

/-- **The parser has to get past the end of the block** for `article` to have taken the block. -/
theorem readTakesBlock_of_evals (hreads : poco.Reads) (hcut : closed = true → poco.ReadsCut)
    (hclosed : s.m_socket.peerClosed = closed) (hraw : s.m_socket.unread = raw) {status : Int}
    (h : isPositiveCompletion status = true) {response : Bytes} {x : Except Exception α}
    {t : NNTPClientSession π} (heval : (articleTail poco (status, response)).Evals s x t)
    (hrest : t.m_socket.unread = rest) : poco.ReadTakesBlock closed raw rest := by
  subst hclosed hraw
  intro content hf
  cases hresult : (poco.read.run [] content).result with
  | ok article => exact Or.inl ⟨article, rfl⟩
  | error e =>
      right
      obtain ⟨raw₁, heval', hend, hmid⟩ :=
        articleBody_throws response hreads hcut h hf hresult
      obtain rfl : raw₁ = rest := by
        rw [← hrest, (heval.unique heval').2]
        rfl
      cases hat : (poco.read.run [] content).atEnd with
      | true => exact Or.inl rfl
      | false => exact Or.inr (hmid hat)

end NNTPClientSession

/-! ## Each command on its own response -/

namespace Operation

open NNTPClientSession

variable {π μ α : Type} {poco : Poco π μ α} {s : NNTPClientSession π}

/-- The parser gets past the end of the block of `r`, if `op` uses it and `r` has one. -/
def ReadTakesResponse (poco : Poco π μ α) (op : Operation) (r : Response) : Prop :=
  op.parses = true → ∀ l ls, r = .block l ls → poco.ReadTakesBlock false (encodeBlock ls) []

/-- The two overloads of `article` do the same with their answer. -/
theorem handle_of_parses {op : Operation} (hop : op.parses = true) (answer : Int × Bytes) :
    op.handle poco answer = .article <$> articleTail poco answer := by
  cases op with
  | article => rfl
  | articleNumber n => rfl
  | _ => exact absurd hop (by simp [parses])

theorem accepts_of_parses {op : Operation} (hop : op.parses = true) :
    op.accepts = isPositiveCompletion := by
  cases op with
  | article => rfl
  | articleNumber n => rfl
  | _ => exact absurd hop (by simp [parses])

/-- A command refused by its server ends there. -/
theorem handle_refused (poco : Poco π μ α) {op : Operation} (hop : op.hasBlock = true)
    {status : Int} (h : op.accepts status = false) (s : NNTPClientSession π) (response : Bytes) :
    ∃ x, (op.handle poco (status, response)).Evals s x s := by
  cases op with
  | capabilities => exact ⟨_, (blockTail_refused h _ response).map _⟩
  | listNewsGroups wildMat => exact ⟨_, (listTail_refused h response).map _⟩
  | selectNewsGroup newsgroup => exact absurd hop (by simp [hasBlock])
  | articleHeader => exact ⟨_, (blockTail_refused h _ response).map _⟩
  | articleRaw => exact ⟨_, (blockTail_refused h _ response).map _⟩
  | article => exact ⟨_, (articleBody_refused response h).map _⟩
  | articleNumber number => exact ⟨_, (articleBody_refused response h).map _⟩
  | stat n => exact absurd hop (by simp [hasBlock])

/-- A command accepted by its server takes the block, whichever of the two ways it reads it. -/
theorem handle_block (hreads : poco.Reads) (hblocks : poco.ReadsBlocks) {op : Operation}
    (hop : op.hasBlock = true) {status : Int} (h : op.accepts status = true) {ls : List Bytes}
    (hls : ∀ l ∈ ls, BreakFree l)
    (hread : op.parses = true → poco.ReadTakesBlock false (encodeBlock ls) [])
    (hclosed : s.m_socket.peerClosed = false) (hunread : s.m_socket.unread = encodeBlock ls)
    (response : Bytes) :
    ∃ x, (op.handle poco (status, response)).Evals s x (s.withUnread []) := by
  have hunread' : s.m_socket.unread = encodeBlock ls ++ [] := by rw [hunread, List.append_nil]
  have hparse : ∀ {status : Int}, isPositiveCompletion status = true → op.parses = true →
      ∃ x, (articleTail poco (status, response)).Evals s x (s.withUnread []) := by
    intro status hstatus hop
    obtain ⟨content, hf⟩ := hblocks false ls [] hls
    rw [List.append_nil] at hf
    exact articleTail_evals hreads (by simp) hclosed hunread hstatus hf (hread hop) response
  cases op with
  | capabilities => exact ⟨_, (blockTail_evals hreads h hls hunread' _ response).map _⟩
  | listNewsGroups wildMat => exact ⟨_, (listTail_evals hreads h hls hunread' response).map _⟩
  | selectNewsGroup newsgroup => exact absurd hop (by simp [hasBlock])
  | articleHeader => exact ⟨_, (blockTail_evals hreads h hls hunread' _ response).map _⟩
  | articleRaw => exact ⟨_, (blockTail_evals hreads h hls hunread' _ response).map _⟩
  | article =>
      obtain ⟨x, heval⟩ := hparse h rfl
      exact ⟨_, heval.map _⟩
  | articleNumber number =>
      obtain ⟨x, heval⟩ := hparse h rfl
      exact ⟨_, heval.map _⟩
  | stat n => exact absurd hop (by simp [hasBlock])

/-- **A command that has read the status line of its own response takes exactly the rest of it.** -/
theorem handle_evals (hreads : poco.Reads) (hblocks : poco.ReadsBlocks) {op : Operation}
    {r : Response} (hr : op.Answers r) (hread : op.ReadTakesResponse poco r)
    (hclosed : s.m_socket.peerClosed = false) (hunread : s.m_socket.unread = r.body)
    (response : Bytes) :
    ∃ x t, (op.handle poco (statusOf r.status, response)).Evals s x t ∧
      t.m_socket = { s.m_socket with unread := [] } ∧ t.history = s.history := by
  cases hr with
  | @single l hl hop =>
      -- no block follows, so there is nothing to take
      have hself : { s.m_socket with unread := [] } = s.m_socket := by
        rw [← show s.m_socket.unread = [] from hunread]
      rw [hself]
      cases op with
      | selectNewsGroup newsgroup =>
          obtain ⟨x, t, heval, hsocket, hhistory⟩ :=
            groupTail_frame poco newsgroup (statusOf l, response) s
          exact ⟨_, t, heval.map _, hsocket, hhistory⟩
      | stat n => exact ⟨_, s, (statTail_evals (statusOf l) response).map _, rfl, rfl⟩
      | _ => exact absurd hop (by simp [hasBlock])
  | @refused l hl hop hstatus =>
      obtain ⟨x, heval⟩ := handle_refused poco hop hstatus s response
      refine ⟨x, s, heval, ?_, rfl⟩
      rw [← show s.m_socket.unread = [] from hunread]
  | @accepted l ls hl hop hstatus hls =>
      obtain ⟨x, heval⟩ := handle_block hreads hblocks hop hstatus hls
        (fun hparses => hread hparses l ls rfl) hclosed hunread response
      exact ⟨x, _, heval, rfl, rfl⟩

end Operation

end NntpPoco
