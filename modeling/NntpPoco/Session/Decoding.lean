import NntpPoco.Poco.Reference
import NntpPoco.Session.Commands

/-!
# `Session.Decoding` — what `multiLineResponse` makes of a block

Two questions about the loop of `multiLineResponse`. Does it give back the lines the server encoded?
It leaves the stuffed dots where they are, so it does for blocks without a line that begins with a dot
and for no other (`block_roundTrip_iff`), while `article` gets the lines themselves in either case
(`article_parsesLines`). Does it end? Its only exit is the line `"."`, so on a stream
the peer has closed it ends if the stream has that line and otherwise goes round for ever on the empty
line of the end of the stream (`block_ends_iff`).
-/

namespace NntpPoco

open Lines Prog Pull NNTPClientSession

variable {π μ α : Type} {poco : Poco π μ α} {server : Server π}

/-! ## Decoding what was encoded -/

/-- When the answer to `article` is `response`, the lines it hands to `NewsArticle::read` are `ls`: it
    comes to what the parser makes of their text, and where the parser returns it leaves `rest`. -/
def ParsesLines (poco : Poco π μ α) (server : Server π) (ls : List Bytes) (response rest : Bytes) :
    Prop :=
  ∀ (op : Operation) (s : NNTPClientSession π) (closed : Bool), op.parses = true →
    s.m_socket.Connected → s.m_socket.unread = [] → (closed = true → poco.ReadsCut) →
    (server.react s.m_socket.peer op.line).2 = (response, closed) →
    ∃ content t, Poco.TextOf ls content ∧
      (op.run poco).Evals s ((poco.read.run [] content).result.map .article) t ∧
      ∀ a, (poco.read.run [] content).result = .ok a → t.m_socket.unread = rest

/-- **`article` hands over the lines the server has encoded**, those that begin with a dot included. -/
theorem article_parsesLines (hwrites : poco.Writes server) (hreads : poco.Reads)
    (hblocks : poco.ReadsBlocks) (hunstuffs : poco.Unstuffs) {ls : List Bytes}
    (hls : ∀ l ∈ ls, BreakFree l) {l : Bytes} (hl : StatusLine l)
    (hstatus : isPositiveCompletion (statusOf l) = true) (rest : Bytes) :
    ParsesLines poco server ls (l ++ (crlf ++ (encodeBlock ls ++ rest))) rest := by
  intro op s closed hop hconn hunread hcut hreact
  obtain ⟨response, _, hexchange⟩ := exchange_evals hreads (op.send_eq hwrites hconn) hunread hl
    (congrArg Prod.fst hreact)
  have hclosed : (s.answered server op.line (encodeBlock ls ++ rest) (statusOf l)
      response).m_socket.peerClosed = closed := congrArg Prod.snd hreact
  obtain ⟨content, left, htext, htail, htaken⟩ := articleTail_reads hreads hblocks hunstuffs
    (fun h => hcut (hclosed.symm.trans h)) hstatus hls rfl response
  have hhandle := htail.map (Result.article (α := α))
  rw [← Operation.handle_of_parses hop] at hhandle
  have hrun := hexchange.bind hhandle
  rw [← Operation.run_eq] at hrun
  exact ⟨content, _, htext, hrun, htaken⟩

/-- **Decoding inverts the server's encoding exactly where there is nothing to unstuff.** The lines are
    those of the block, nothing behind it is read, `articleHeader` and `articleRaw` return them, and
    they are the lines both overloads of `article` feed to `NewsArticle::read` for the same response. -/
theorem block_roundTrip_iff (hwrites : poco.Writes server) (hreads : poco.Reads)
    (hblocks : poco.ReadsBlocks) (hunstuffs : poco.Unstuffs) {ls : List Bytes}
    (hls : ∀ l ∈ ls, BreakFree l) {rest : Bytes}
    {s : NNTPClientSession π} (hs : s.m_socket.unread = encodeBlock ls ++ rest)
    {op : Operation} (hop : op = .articleHeader ∨ op = .articleRaw) {s' : NNTPClientSession π}
    (hconn : s'.m_socket.Connected) (hunread : s'.m_socket.unread = []) {l : Bytes}
    (hl : StatusLine l) (hstatus : isPositiveCompletion (statusOf l) = true)
    (hreact : (server.react s'.m_socket.peer op.line).2.1 =
      l ++ (crlf ++ (encodeBlock ls ++ rest))) :
    ((multiLineResponse poco).Evals s (.ok ls) (s.withUnread rest) ∧
      (∃ t, (op.run poco).Evals s' (.ok (.lines ls)) t ∧ t.m_socket.unread = rest) ∧
      ParsesLines poco server ls (l ++ (crlf ++ (encodeBlock ls ++ rest))) rest) ↔
    ∀ l ∈ ls, l.head? ≠ some LineSyntax.dot := by
  have hraw := multiLineResponse_evals hreads hls hs
  obtain ⟨response, _, hexchange⟩ := exchange_evals hreads (op.send_eq hwrites hconn) hunread hl
    hreact
  have hhandle : (op.handle poco (statusOf l, response)).Evals
      (s'.answered server op.line (encodeBlock ls ++ rest) (statusOf l) response)
      (.ok (.lines (ls.map stuff)))
      ((s'.answered server op.line (encodeBlock ls ++ rest) (statusOf l) response).withUnread
        rest) := by
    rcases hop with rfl | rfl
    · exact (blockTail_evals hreads hstatus hls rfl _ response).map Result.lines
    · exact (blockTail_evals hreads hstatus hls rfl _ response).map Result.lines
  have hrun := hexchange.bind hhandle
  rw [← Operation.run_eq] at hrun
  constructor
  · rintro ⟨hmulti, _, _⟩
    have hsame := Except.ok.inj (hmulti.unique hraw).1
    exact map_stuff_eq_self_iff.mp hsame.symm
  · intro hdots
    rw [map_stuff_eq_self_iff.mpr hdots] at hraw hrun
    exact ⟨hraw, ⟨_, hrun, rfl⟩,
      article_parsesLines hwrites hreads hblocks hunstuffs hls hl hstatus rest⟩

theorem block_roundTrip_iff_accepting :
    let ls := [text "From: me", [], text "body"]
    let server := Server.accepting ls
    let poco := Poco.reference server Reference.readAll id
    let s := openedSession.withUnread (encodeBlock ls)
    ((multiLineResponse poco).Evals s (.ok ls) (s.withUnread []) ∧
      (∃ t, (Operation.articleHeader.run poco).Evals openedSession (.ok (.lines ls)) t ∧
        t.m_socket.unread = []) ∧
      ParsesLines poco server ls (text "220 follows" ++ (crlf ++ (encodeBlock ls ++ []))) []) ↔
    ∀ l ∈ ls, l.head? ≠ some LineSyntax.dot :=
  block_roundTrip_iff Reference.writes Reference.reads Reference.readsBlocks Reference.unstuffs
    (by decide) (by simp) (Or.inl rfl) ⟨rfl, rfl⟩ rfl (l := text "220 follows") ⟨by decide, rfl⟩ rfl rfl

/-- A line that begins with a dot comes back with the dot the server put before it. -/
theorem dot_line_keeps_stuffing :
    let ls := [text ".x"]
    let poco := Poco.reference (Server.accepting ls) Reference.readAll id
    let s := openedSession.withUnread (encodeBlock ls)
    (multiLineResponse poco).Evals s (.ok [text "..x"]) (s.withUnread []) ∧
      ¬ (multiLineResponse poco).Evals s (.ok ls) (s.withUnread []) ∧
      ∃ t, (Operation.articleRaw.run poco).Evals openedSession (.ok (.lines [text "..x"])) t := by
  intro ls poco s
  have hraw : (multiLineResponse poco).Evals s (.ok [text "..x"]) (s.withUnread []) :=
    .of_run 9 (by rfl)
  refine ⟨hraw, ?_, _, .of_run 9 (by rfl)⟩
  intro h
  exact absurd (Except.ok.inj (h.unique hraw).1) (by decide)

/-! ## The end of the stream -/

/-- The lines `receiveMessage` takes off a closed stream, one call after the other, while there is
    something left; `fuel` bounds the calls. -/
def receivedLines (split : Bytes → Bytes × Bool × Bytes) : ℕ → Bytes → List Bytes
  | 0, _ => []
  | fuel + 1, raw =>
    if raw = [] then [] else (split raw).1 :: receivedLines split fuel (split raw).2.2

/-- All of them: every call takes a byte at least. -/
def received (split : Bytes → Bytes × Bool × Bytes) (raw : Bytes) : List Bytes :=
  receivedLines split raw.length raw

variable {split : Bytes → Bytes × Bool × Bytes}

theorem receivedLines_of_le (hsplit : poco.Splits split) {n : ℕ} :
    ∀ {m : ℕ} {raw : Bytes}, raw.length ≤ n → raw.length ≤ m →
      receivedLines split n raw = receivedLines split m raw := by
  induction n with
  | zero =>
      intro m raw hn _
      obtain rfl : raw = [] := List.eq_nil_of_length_eq_zero (by omega)
      cases m <;> simp [receivedLines]
  | succ n ih =>
      intro m raw hn hm
      by_cases hraw : raw = []
      · subst hraw
        cases m <;> simp [receivedLines]
      · have htakes := hsplit.takes raw hraw
        cases m with
        | zero => exact absurd (List.eq_nil_of_length_eq_zero (by omega)) hraw
        | succ m =>
            have hrest : receivedLines split n (split raw).2.2 =
                receivedLines split m (split raw).2.2 := ih (by omega) (by omega)
            simp only [receivedLines, hraw, if_false, hrest]

theorem received_nil : received split [] = [] := rfl

theorem received_cons (hsplit : poco.Splits split) {raw : Bytes} (hraw : raw ≠ []) :
    received split raw = (split raw).1 :: received split (split raw).2.2 := by
  have htakes := hsplit.takes raw hraw
  obtain ⟨n, hn⟩ : ∃ n, raw.length = n + 1 := ⟨raw.length - 1, by omega⟩
  rw [received, hn, receivedLines, if_neg hraw, received,
    receivedLines_of_le hsplit (n := n) (m := (split raw).2.2.length) (by omega) (by omega)]

/-- One more line off a closed stream: the next one, or the empty line of its end. -/
theorem multiLineRound_closed (hsplit : poco.Splits split) {s : NNTPClientSession π}
    (hclosed : s.m_socket.peerClosed = true) {line : Bytes} (hline : line ≠ text ".")
    (acc : List Bytes) :
    (multiLineRound poco (acc, line)).Evals s
      (.ok (.inl (acc ++ [line], (split s.m_socket.unread).1)))
      (s.withUnread (split s.m_socket.unread).2.2) :=
  multiLineRound_line acc hline (hsplit.receiveMessage s.m_socket hclosed)

/-- With the dot still to come, the loop ends with the lines before it. -/
theorem multiLineLoop_ends (hsplit : poco.Splits split) {n : ℕ} :
    ∀ {s : NNTPClientSession π} {line : Bytes} (acc : List Bytes),
      s.m_socket.peerClosed = true → s.m_socket.unread.length = n →
      text "." ∈ line :: received split s.m_socket.unread →
      ∃ t, (loop (multiLineRound poco) (acc, line)).Evals s
        (.ok (acc ++ (line :: received split s.m_socket.unread).takeWhile (· ≠ text "."))) t := by
  -- on the bytes left: every line takes one at least
  induction n using Nat.strong_induction_on with
  | _ n ih =>
      intro s line acc hclosed hlen hmem
      by_cases hline : line = text "."
      · subst hline
        refine ⟨s, ?_⟩
        simp only [ne_eq, not_true_eq_false, decide_false, Bool.false_eq_true, not_false_eq_true,
          List.takeWhile_cons_of_neg, List.append_nil]
        exact (multiLineRound_dot acc s).loop_exit
      · have hmem' : text "." ∈ received split s.m_socket.unread := by
          rcases List.mem_cons.mp hmem with h | h
          · exact absurd h.symm hline
          · exact h
        -- so the stream has not ended yet
        have hraw : s.m_socket.unread ≠ [] := by
          intro h
          rw [h, received_nil] at hmem'
          exact absurd hmem' List.not_mem_nil
        rw [received_cons hsplit hraw] at hmem' ⊢
        obtain ⟨t, hloop⟩ := ih _ (hlen ▸ hsplit.takes _ hraw)
          (s := s.withUnread (split s.m_socket.unread).2.2) (acc ++ [line]) hclosed rfl hmem'
        refine ⟨t, (multiLineRound_closed hsplit hclosed hline acc).loop_again ?_⟩
        simpa [hline] using hloop

/-- Without a dot to come, the loop goes round for ever. -/
theorem multiLineLoop_diverges (hsplit : poco.Splits split) {s : NNTPClientSession π} {line : Bytes}
    (acc : List Bytes) (hclosed : s.m_socket.peerClosed = true)
    (hdot : text "." ∉ line :: received split s.m_socket.unread) :
    (loop (multiLineRound poco) (acc, line)).Diverges s := by
  -- once the stream has ended the lines are empty, and the dot is still not among them
  refine diverges_loop (fun (x : List Bytes × Bytes) (s : NNTPClientSession π) =>
    s.m_socket.peerClosed = true ∧ text "." ∉ x.2 :: received split s.m_socket.unread) ?_
    ⟨hclosed, hdot⟩
  rintro ⟨acc, line⟩ s ⟨hclosed, hdot⟩
  have hline : line ≠ text "." := fun h => hdot (h ▸ List.mem_cons_self)
  refine ⟨_, _, multiLineRound_closed hsplit hclosed hline acc, hclosed, ?_⟩
  have hrest : text "." ∉ received split s.m_socket.unread :=
    fun h => hdot (List.mem_cons_of_mem _ h)
  by_cases hraw : s.m_socket.unread = []
  · rw [withUnread_unread, hraw, hsplit.atEnd]
    simp [received_nil, text]
  · rwa [received_cons hsplit hraw] at hrest

/-- The first line received and the lines after it hold a dot exactly when the stream does. -/
theorem dot_mem_first_iff (hsplit : poco.Splits split) (raw : Bytes) :
    text "." ∈ (split raw).1 :: received split (split raw).2.2 ↔ text "." ∈ received split raw := by
  by_cases hraw : raw = []
  · subst hraw
    rw [hsplit.atEnd]
    simp [received_nil, text]
  · rw [received_cons hsplit hraw]

/-- **`multiLineResponse` on a closed stream with a dot line** returns the lines before it. -/
theorem multiLineResponse_ends (hsplit : poco.Splits split) {s : NNTPClientSession π}
    (hclosed : s.m_socket.peerClosed = true)
    (hdot : text "." ∈ received split s.m_socket.unread) :
    ∃ t, (multiLineResponse poco).Evals s
      (.ok ((received split s.m_socket.unread).takeWhile (· ≠ text "."))) t := by
  have hraw : s.m_socket.unread ≠ [] := by
    intro h
    rw [h, received_nil] at hdot
    exact absurd hdot List.not_mem_nil
  rw [received_cons hsplit hraw] at hdot ⊢
  obtain ⟨t, hloop⟩ := multiLineLoop_ends hsplit
    (s := s.withUnread (split s.m_socket.unread).2.2) [] hclosed rfl hdot
  rw [multiLineResponse_eq]
  exact ⟨t, (call_evals_unread (hsplit.receiveMessage s.m_socket hclosed)).bind hloop⟩

/-- **`multiLineResponse` on a closed stream without a dot line** never ends. -/
theorem multiLineResponse_diverges (hsplit : poco.Splits split) {s : NNTPClientSession π}
    (hclosed : s.m_socket.peerClosed = true)
    (hdot : text "." ∉ received split s.m_socket.unread) : (multiLineResponse poco).Diverges s := by
  rw [diverges_iff]
  rintro ⟨x, t, heval⟩
  rw [multiLineResponse_eq,
    Evals.bind_iff (call_evals_unread (hsplit.receiveMessage s.m_socket hclosed))] at heval
  have hloop := multiLineLoop_diverges hsplit []
    (s := s.withUnread (split s.m_socket.unread).2.2) hclosed
    (fun h => hdot ((dot_mem_first_iff hsplit _).mp h))
  exact diverges_iff.mp hloop ⟨x, t, heval⟩

/-- What `multiLineResponse` owes its caller on a stream the peer has closed: it ends, with the lines
    before the dot line, or by an exception when the stream ends first. -/
def EndsProperly (poco : Poco π μ α) (split : Bytes → Bytes × Bool × Bytes)
    (s : NNTPClientSession π) : Prop :=
  ∃ x t, (multiLineResponse poco).Evals s x t ∧
    (text "." ∈ received split s.m_socket.unread →
      x = .ok ((received split s.m_socket.unread).takeWhile (· ≠ text "."))) ∧
    (text "." ∉ received split s.m_socket.unread → ∃ e, x = .error e)

theorem endsProperly_iff (hsplit : poco.Splits split) {s : NNTPClientSession π}
    (hclosed : s.m_socket.peerClosed = true) :
    EndsProperly poco split s ↔ text "." ∈ received split s.m_socket.unread := by
  constructor
  · rintro ⟨x, t, heval, _⟩
    by_contra hdot
    exact diverges_iff.mp (multiLineResponse_diverges hsplit hclosed hdot) ⟨x, t, heval⟩
  · intro hdot
    obtain ⟨t, heval⟩ := multiLineResponse_ends hsplit hclosed hdot
    exact ⟨_, t, heval, fun _ => rfl, fun h => absurd hdot h⟩

/-- After an accepted status line the line-based commands end where `multiLineResponse` does. -/
theorem handle_halts_of_dot (hsplit : poco.Splits split) {op : Operation}
    (hop : op.hasBlock = true) (hparses : op.parses = false) {s : NNTPClientSession π}
    (hclosed : s.m_socket.peerClosed = true)
    (hdot : text "." ∈ received split s.m_socket.unread) {status : Int}
    (hstatus : op.accepts status = true) (response : Bytes) :
    (op.handle poco (status, response)).Halts s := by
  obtain ⟨t, heval⟩ := multiLineResponse_ends hsplit hclosed hdot
  have hblock : ∀ {accepts : Int → Bool} (message : String), accepts status = true →
      (blockTail poco accepts message (status, response)).Evals s
        (.ok ((received split s.m_socket.unread).takeWhile (· ≠ text "."))) t := by
    intro accepts message haccepts
    simp only [blockTail, haccepts, Bool.not_true, Bool.false_eq_true, if_false]
    exact heval
  cases op with
  | capabilities => exact ⟨_, _, (hblock _ hstatus).map _⟩
  | listNewsGroups wildMat =>
      have hlist : (listTail poco (status, response)).Evals s
          (((received split s.m_socket.unread).takeWhile (· ≠ text ".")).mapM groupDesc) t := by
        have hpositive : isPositiveCompletion status = true := hstatus
        simp only [listTail, hpositive, Bool.not_true, Bool.false_eq_true, if_false]
        exact heval.bind (by simp)
      exact ⟨_, _, hlist.map _⟩
  | articleHeader => exact ⟨_, _, (hblock _ hstatus).map _⟩
  | articleRaw => exact ⟨_, _, (hblock _ hstatus).map _⟩
  | selectNewsGroup newsgroup => exact absurd hop (by simp [Operation.hasBlock])
  | stat n => exact absurd hop (by simp [Operation.hasBlock])
  | article => exact absurd hparses (by simp [Operation.parses])
  | articleNumber n => exact absurd hparses (by simp [Operation.parses])

/-- **`multiLineResponse`, and with it `capabilities`, `listNewsGroups`, `articleHeader` and
    `articleRaw` after an accepted status line, ends exactly on the streams that have a dot line.** -/
theorem block_ends_iff (hwrites : poco.Writes server) (hreads : poco.Reads)
    (hsplit : poco.Splits split) {s : NNTPClientSession π} (hclosed : s.m_socket.peerClosed = true) :
    (EndsProperly poco split s ∧
      ∀ (op : Operation) (s' : NNTPClientSession π) (l : Bytes), op.hasBlock = true →
        op.parses = false → s'.m_socket.Connected → s'.m_socket.unread = [] → StatusLine l →
        op.accepts (statusOf l) = true →
        (server.react s'.m_socket.peer op.line).2 = (l ++ (crlf ++ s.m_socket.unread), true) →
        (op.run poco).Halts s') ↔
    text "." ∈ received split s.m_socket.unread := by
  rw [endsProperly_iff hsplit hclosed]
  refine ⟨And.left, fun hdot => ⟨hdot, ?_⟩⟩
  intro op s' l hop hparses hconn hunread hl hstatus hreact
  obtain ⟨response, _, hexchange⟩ := exchange_evals hreads (op.send_eq hwrites hconn) hunread hl
    (congrArg Prod.fst hreact)
  obtain ⟨x, t, hhandle⟩ := handle_halts_of_dot hsplit hop hparses
    (s := s'.answered server op.line s.m_socket.unread (statusOf l) response)
    (congrArg Prod.snd hreact) hdot hstatus response
  rw [Operation.run_eq]
  exact ⟨x, t, hexchange.bind hhandle⟩

/-- A session on a connection the peer has closed behind the bytes `raw`. -/
def cutSession (raw : Bytes) : NNTPClientSession ℕ :=
  .ofSocket ⟨raw, true, [], false, 0⟩

theorem block_ends_iff_cut :
    let raw := text "a\r\n.\r\nb"
    let server := Server.saying (text "220 follows\r\n" ++ raw) true
    let poco := Poco.reference server Reference.readAll id
    (EndsProperly poco readLine (cutSession raw) ∧
      ∀ (op : Operation) (s' : NNTPClientSession ℕ) (l : Bytes), op.hasBlock = true →
        op.parses = false → s'.m_socket.Connected → s'.m_socket.unread = [] → StatusLine l →
        op.accepts (statusOf l) = true →
        (server.react s'.m_socket.peer op.line).2 = (l ++ (crlf ++ raw), true) →
        (op.run poco).Halts s') ↔
    text "." ∈ received readLine raw :=
  block_ends_iff Reference.writes Reference.reads Reference.splits (s := cutSession _) rfl

/-- Cut off before its dot line, a block keeps `multiLineResponse` going for ever, and `articleHeader`
    with it. -/
theorem cut_block_diverges :
    let raw := text "Subject: a\r\nFr"
    let server := Server.saying (text "220 follows\r\n" ++ raw) true
    let poco := Poco.reference server Reference.readAll id
    (multiLineResponse poco).Diverges (cutSession raw) ∧
      ¬ EndsProperly poco readLine (cutSession raw) ∧
      (Operation.articleHeader.run poco).Diverges openedSession := by
  intro raw server poco
  have hdiverges : ∀ s : NNTPClientSession ℕ, s.m_socket.peerClosed = true →
      s.m_socket.unread = raw → (multiLineResponse poco).Diverges s := by
    intro s hclosed hs
    apply multiLineResponse_diverges Reference.splits hclosed
    rw [hs]
    decide
  refine ⟨hdiverges _ rfl rfl, ?_, ?_⟩
  · rw [endsProperly_iff Reference.splits rfl]
    decide
  · rw [diverges_iff]
    rintro ⟨x, t, heval⟩
    have hreads : poco.Reads := Reference.reads
    have hwrites : poco.Writes server := Reference.writes
    have hreact : (server.react openedSession.m_socket.peer Operation.articleHeader.line).2.1 =
        text "220 follows" ++ (crlf ++ raw) := rfl
    obtain ⟨response, _, hexchange⟩ := exchange_evals (s := openedSession) hreads
      (Operation.articleHeader.send_eq hwrites ⟨rfl, rfl⟩) rfl ⟨by decide, rfl⟩ hreact
    rw [Operation.run_eq, hexchange.bind_iff] at heval
    obtain ⟨y, hblock, _⟩ := evals_map.mp heval
    exact diverges_iff.mp (hdiverges _ rfl rfl) ⟨y, t, hblock⟩

end NntpPoco
