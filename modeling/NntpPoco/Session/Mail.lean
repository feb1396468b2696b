import NntpPoco.Session.Spec

/-!
# `Session.Mail` — an article read off the wire

The second half of `article`: the parser is given the letters of a `MailInputStream`, and the stream is
drained behind it. Everything is stated on the decoder's `Feeds`: what it has still to give, and what
it leaves in the socket once it has shown its end of file. `articleBody_returns` and
`articleBody_throws` are the two ways out.
-/

namespace NntpPoco

open Lines Prog Pull

namespace NNTPClientSession

variable {π μ α β : Type} {poco : Poco π μ α} {closed : Bool}

/-! ## One letter -/

theorem sisGet_byte (hreads : poco.Reads) {s : NNTPClientSession π} {b : UInt8} {rest : Bytes}
    (hs : s.m_socket.unread = b :: rest) :
    (sisGet poco true).Evals s (.ok (some b)) (s.withUnread rest) := by
  have hget : (readFromDevice poco).Evals s (.ok (some b)) (s.withUnread rest) :=
    call_evals_unread (hreads.get s.m_socket b rest hs)
  simp only [sisGet, if_true]
  exact (evals_attempt.mpr ⟨_, hget, rfl⟩).bind (by simp)

theorem sisGet_end (hcut : poco.ReadsCut) {s : NNTPClientSession π}
    (hclosed : s.m_socket.peerClosed = true) (hs : s.m_socket.unread = []) (below : Bool) :
    (sisGet poco below).Evals s (.ok none) s := by
  cases below with
  | false => simp [sisGet]
  | true =>
      have hsocket : poco.get s.m_socket = (.ok none, { s.m_socket with unread := [] }) := by
        rw [hcut.get s.m_socket hclosed hs, ← hs]
      have hget : (readFromDevice poco).Evals s (.ok none) s := by
        have h := call_evals_unread hsocket
        rwa [withUnread_self hs] at h
      simp only [sisGet, if_true]
      exact (evals_attempt.mpr ⟨_, hget, rfl⟩).bind (by simp)

/-- One round of the loop of `misGet`. -/
def misRound (poco : Poco π μ α) (x : μ × Bool) :
    Method π ((μ × Bool) ⊕ (Option UInt8 × MailInputStream μ)) := do
  match poco.mailInputStream.next x.1 with
  | .give c m => pure (.inr (c, ⟨m, x.2, c.isNone⟩))
  | .take k =>
    let b ← sisGet poco x.2
    pure (.inl (k b, x.2 && b.isSome))

theorem misGet_eq (mis : MailInputStream μ) :
    misGet poco mis = loop (misRound poco) (mis.state, mis.below) := rfl

theorem misRound_give {m m' : μ} {c : Option UInt8} (h : poco.mailInputStream.next m = .give c m')
    (below : Bool) (s : NNTPClientSession π) :
    (misRound poco (m, below)).Evals s (.ok (.inr (c, ⟨m', below, c.isNone⟩))) s := by
  simp [misRound, h]

theorem misRound_take {m : μ} {k : Option UInt8 → μ} (h : poco.mailInputStream.next m = .take k)
    {below : Bool} {b : Option UInt8} {s t : NNTPClientSession π}
    (hb : (sisGet poco below).Evals s (.ok b) t) :
    (misRound poco (m, below)).Evals s (.ok (.inl (k b, below && b.isSome))) t := by
  simp only [misRound, h]
  exact hb.bind (by simp)

/-- **One `mis.get()`** does on the session what one `Gets` does on the bytes. A stream below that is
    not `good()` any more has nothing left to give. -/
theorem misGet_evals (hreads : poco.Reads) (hcut : closed = true → poco.ReadsCut) {m m' : μ}
    {raw raw' : Bytes} {c : Option UInt8} (h : poco.mailInputStream.Gets closed m raw c m' raw')
    {s : NNTPClientSession π} (hs : s.m_socket.unread = raw)
    (hclosed : s.m_socket.peerClosed = closed) (below : Bool) (hbelow : below = false → raw = [])
    (eof : Bool) :
    ∃ below', (below' = false → raw' = []) ∧
      (misGet poco ⟨m, below, eof⟩).Evals s (.ok (c, ⟨m', below', c.isNone⟩))
        (s.withUnread raw') := by
  simp only [misGet_eq]
  -- on the bytes the stream takes from below for one letter
  induction h generalizing s below with
  | give h =>
      rw [withUnread_self hs]
      exact ⟨below, hbelow, (misRound_give h below s).loop_exit⟩
  | @take m k b raw c m' raw' h hg ih =>
      -- a stream below that is not good has no byte left to take
      obtain rfl : below = true := by
        cases below with
        | true => rfl
        | false => exact absurd (hbelow rfl) (by simp)
      obtain ⟨below', hbelow', heval⟩ := ih (s := s.withUnread raw) rfl hclosed true (by simp)
      exact ⟨below', hbelow', (misRound_take h (sisGet_byte hreads hs)).loop_again heval⟩
  | @takeEnd m k c m' raw' h hc hg ih =>
      obtain ⟨below', hbelow', heval⟩ := ih hs hclosed (below && false) (by simp)
      exact ⟨below', hbelow', (misRound_take h
        (sisGet_end (hcut hc) (hclosed.trans hc) hs below)).loop_again heval⟩

/-! ## The stream in the middle of a block -/

/-- The stream `mis` over the session's socket still has `content` to give, and will have left `raw'`
    in the socket when it has shown its end of file. -/
inductive Positioned (poco : Poco π μ α) (s : NNTPClientSession π) :
    MailInputStream μ → Bytes → Bytes → Prop
  | atEnd {m below raw'} (hs : s.m_socket.unread = raw') : Positioned poco s ⟨m, below, true⟩ [] raw'
  | inside {m below content raw'} (hbelow : below = false → s.m_socket.unread = [])
      (hf : poco.mailInputStream.Feeds s.m_socket.peerClosed m s.m_socket.unread content raw') :
      Positioned poco s ⟨m, below, false⟩ content raw'

/-- One `mis.get()` in the middle of a block. -/
theorem misGet_positioned (hreads : poco.Reads) {s : NNTPClientSession π}
    (hcut : s.m_socket.peerClosed = true → poco.ReadsCut) {m : μ} {below : Bool}
    {content raw' : Bytes} (hbelow : below = false → s.m_socket.unread = [])
    (hf : poco.mailInputStream.Feeds s.m_socket.peerClosed m s.m_socket.unread content raw') :
    ∃ mis' raw₁, (misGet poco ⟨m, below, false⟩).Evals s (.ok (content.head?, mis'))
        (s.withUnread raw₁) ∧
      Positioned poco (s.withUnread raw₁) mis' content.tail raw' ∧
      mis'.eof = content.isEmpty ∧
      poco.mailInputStream.Gets s.m_socket.peerClosed m s.m_socket.unread content.head? mis'.state
        raw₁ := by
  cases hf with
  | eof hg =>
      obtain ⟨below', _, heval⟩ := misGet_evals hreads hcut hg rfl rfl below hbelow false
      exact ⟨_, _, heval, .atEnd rfl, rfl, hg⟩
  | more hg hf =>
      obtain ⟨below', hbelow', heval⟩ := misGet_evals hreads hcut hg rfl rfl below hbelow false
      exact ⟨_, _, heval, .inside hbelow' hf, rfl, hg⟩

/-- One round of the loop of `drain`. -/
def drainRound (poco : Poco π μ α) (mis : MailInputStream μ) :
    Method π (MailInputStream μ ⊕ Unit) := do
  if mis.good then
    let c ← misGet poco mis
    pure (.inl c.2)
  else
    pure (.inr ())

theorem drain_eq (mis : MailInputStream μ) : drain poco mis = loop (drainRound poco) mis := rfl

theorem drainRound_atEnd (m : μ) (below : Bool) (s : NNTPClientSession π) :
    (drainRound poco ⟨m, below, true⟩).Evals s (.ok (.inr ())) s := by
  simp [drainRound, MailInputStream.good]

theorem drainRound_inside {m : μ} {below : Bool} {s t : NNTPClientSession π} {c : Option UInt8}
    {mis' : MailInputStream μ} (h : (misGet poco ⟨m, below, false⟩).Evals s (.ok (c, mis')) t) :
    (drainRound poco ⟨m, below, false⟩).Evals s (.ok (.inl mis')) t := by
  simp only [drainRound, MailInputStream.good, Bool.not_false, if_true]
  exact h.bind (by simp)

/-- **`while (mis.good()) mis.get();`** takes the rest of the block and nothing after it. -/
theorem drain_evals (hreads : poco.Reads) {s : NNTPClientSession π}
    (hcut : s.m_socket.peerClosed = true → poco.ReadsCut) {mis : MailInputStream μ}
    {content raw' : Bytes} (hpos : Positioned poco s mis content raw') :
    (drain poco mis).Evals s (.ok ()) (s.withUnread raw') := by
  rw [drain_eq]
  -- on what the stream has still to give
  induction content generalizing s mis with
  | nil =>
      cases hpos with
      | @atEnd m below _ hs =>
          rw [withUnread_self hs]
          exact (drainRound_atEnd m below s).loop_exit
      | inside hbelow hf =>
          obtain ⟨⟨m', below', eof'⟩, raw₁, heval, hpos', heof, _⟩ :=
            misGet_positioned hreads hcut hbelow hf
          obtain rfl : eof' = true := heof
          cases hpos' with
          | atEnd hs =>
              obtain rfl : raw₁ = raw' := hs
              exact (drainRound_inside heval).loop_again
                (drainRound_atEnd m' below' _).loop_exit
  | cons b content ih =>
      cases hpos with
      | inside hbelow hf =>
          obtain ⟨mis', raw₁, heval, hpos', _, _⟩ := misGet_positioned hreads hcut hbelow hf
          exact (drainRound_inside heval).loop_again (ih (s := s.withUnread raw₁) hcut hpos')

/-! ## The parser -/

/-- One round of the loop of `readArticle`. -/
def readRound (poco : Poco π μ α) (x : Bytes × MailInputStream μ) :
    Method π ((Bytes × MailInputStream μ) ⊕ (α × MailInputStream μ)) := do
  match poco.read.step x.1 with
  | some r =>
    let article ← ofExcept r
    pure (.inr (article, x.2))
  | none =>
    let c ← misGet poco x.2
    match c.1 with
    | some b => pure (.inl (x.1 ++ [b], c.2))
    | none =>
      let article ← ofExcept (poco.read.finish x.1)
      pure (.inr (article, c.2))

theorem readArticle_eq (mis : MailInputStream μ) :
    readArticle poco mis = loop (readRound poco) ([], mis) := rfl

/-- How the loop of `readArticle` leaves a stream that had `content` to give after `seen`. -/
structure ReadOutcome (poco : Poco π μ α) (s : NNTPClientSession π) (m : μ) (below : Bool)
    (seen content raw' : Bytes) : Prop where
  returns : ∀ article, (poco.read.run seen content).result = .ok article →
    ∃ mis' raw₁, (loop (readRound poco) (seen, ⟨m, below, false⟩)).Evals s (.ok (article, mis'))
        (s.withUnread raw₁) ∧
      Positioned poco (s.withUnread raw₁) mis' (poco.read.run seen content).left raw'
  throws : ∀ e, (poco.read.run seen content).result = .error e →
    ∃ raw₁, (loop (readRound poco) (seen, ⟨m, below, false⟩)).Evals s (.error e)
        (s.withUnread raw₁) ∧
      ((poco.read.run seen content).atEnd = true → raw₁ = raw') ∧
      ((poco.read.run seen content).atEnd = false → ∃ given m₁,
        (poco.read.run seen content).taken = seen ++ given ∧
        poco.mailInputStream.Delivers s.m_socket.peerClosed m s.m_socket.unread given m₁ raw₁)

theorem readRound_stop {seen : Bytes} {r : Except Exception α} (h : poco.read.step seen = some r)
    (mis : MailInputStream μ) (s : NNTPClientSession π) :
    (readRound poco (seen, mis)).Evals s (r.map fun article => .inr (article, mis)) s := by
  simp only [readRound, h]
  cases r with
  | ok article => simp [evals_bind, Except.map]
  | error e => simp [evals_bind, Except.map]

theorem readRound_more {seen : Bytes} (h : poco.read.step seen = none) {mis mis' : MailInputStream μ}
    {s t : NNTPClientSession π} {b : UInt8} (hget : (misGet poco mis).Evals s (.ok (some b, mis')) t) :
    (readRound poco (seen, mis)).Evals s (.ok (.inl (seen ++ [b], mis'))) t := by
  simp only [readRound, h]
  exact hget.bind (by simp)

theorem readRound_finish {seen : Bytes} (h : poco.read.step seen = none)
    {mis mis' : MailInputStream μ} {s t : NNTPClientSession π}
    (hget : (misGet poco mis).Evals s (.ok (none, mis')) t) :
    (readRound poco (seen, mis)).Evals s
      ((poco.read.finish seen).map fun article => .inr (article, mis')) t := by
  simp only [readRound, h]
  apply hget.bind
  cases hfin : poco.read.finish seen with
  | ok article => simp [evals_bind, Except.map]
  | error e => simp [evals_bind, Except.map]

/-- The parser stops before it asks for another letter. -/
theorem readOutcome_stop {seen : Bytes} {r : Except Exception α} (hstep : poco.read.step seen = some r)
    {s : NNTPClientSession π} {m : μ} {below : Bool} {content raw' : Bytes}
    (hbelow : below = false → s.m_socket.unread = [])
    (hf : poco.mailInputStream.Feeds s.m_socket.peerClosed m s.m_socket.unread content raw') :
    ReadOutcome poco s m below seen content raw' := by
  have hround := readRound_stop hstep ⟨m, below, false⟩ s
  have hself : s.withUnread s.m_socket.unread = s := withUnread_self rfl
  constructor
  · intro article hok
    rw [Consumer.run_of_some _ hstep] at hok ⊢
    rw [show r = .ok article from hok] at hround
    exact ⟨⟨m, below, false⟩, s.m_socket.unread, hself.symm ▸ Evals.loop_exit hround,
      .inside hbelow hf⟩
  · intro e herr
    rw [Consumer.run_of_some _ hstep] at herr ⊢
    rw [show r = .error e from herr] at hround
    exact ⟨s.m_socket.unread, hself.symm ▸ Evals.loop_error hround, by simp,
      fun _ => ⟨[], m, by simp, .nil⟩⟩

/-- The parser meets the end of file. -/
theorem readOutcome_finish {seen : Bytes} (hstep : poco.read.step seen = none)
    {s : NNTPClientSession π} {m m' : μ} {below below' : Bool} {raw₁ raw' : Bytes}
    (hget : (misGet poco ⟨m, below, false⟩).Evals s (.ok (none, ⟨m', below', true⟩))
      (s.withUnread raw₁)) (hraw : raw₁ = raw') :
    ReadOutcome poco s m below seen [] raw' := by
  have hround := readRound_finish hstep hget
  constructor
  · intro article hok
    rw [Consumer.run_nil_of_none _ hstep] at hok ⊢
    rw [show poco.read.finish seen = .ok article from hok] at hround
    exact ⟨⟨m', below', true⟩, raw₁, Evals.loop_exit hround, .atEnd hraw⟩
  · intro e herr
    rw [Consumer.run_nil_of_none _ hstep] at herr ⊢
    rw [show poco.read.finish seen = .error e from herr] at hround
    exact ⟨raw₁, Evals.loop_error hround, fun _ => hraw, by simp⟩

/-- **`article.read(mis)`** is the parser run on what the stream has to give. -/
theorem readLoop_outcome (hreads : poco.Reads) {s : NNTPClientSession π}
    (hcut : s.m_socket.peerClosed = true → poco.ReadsCut) {m : μ} (below : Bool) (seen : Bytes)
    {content raw' : Bytes} (hbelow : below = false → s.m_socket.unread = [])
    (hf : poco.mailInputStream.Feeds s.m_socket.peerClosed m s.m_socket.unread content raw') :
    ReadOutcome poco s m below seen content raw' := by
  -- on what the stream has still to give, with what the parser has `seen` growing
  induction content generalizing s m below seen with
  | nil =>
      cases hstep : poco.read.step seen with
      | some r => exact readOutcome_stop hstep hbelow hf
      | none =>
          obtain ⟨⟨m', below', eof'⟩, raw₁, hget, hpos', heof, _⟩ :=
            misGet_positioned hreads hcut hbelow hf
          obtain rfl : eof' = true := heof
          cases hpos' with
          | atEnd hs => exact readOutcome_finish hstep hget hs
  | cons b content ih =>
      cases hstep : poco.read.step seen with
      | some r => exact readOutcome_stop hstep hbelow hf
      | none =>
          obtain ⟨⟨m', below', eof'⟩, raw₁, hget, hpos', heof, hg⟩ :=
            misGet_positioned hreads hcut hbelow hf
          obtain rfl : eof' = false := heof
          have hround := readRound_more hstep hget
          have hrun := Consumer.run_cons_of_none poco.read hstep b content
          cases hpos' with
          | inside hbelow' hf' =>
              have hrest := ih (s := s.withUnread raw₁) hcut _ (seen ++ [b]) hbelow' hf'
              constructor
              · intro article hok
                rw [hrun] at hok ⊢
                obtain ⟨mis', raw₂, heval', hpos'⟩ := hrest.returns article hok
                exact ⟨mis', raw₂, hround.loop_again heval', hpos'⟩
              · intro e herr
                rw [hrun] at herr ⊢
                obtain ⟨raw₂, heval', hend, hmid⟩ := hrest.throws e herr
                -- the letter just read is one more that was delivered
                refine ⟨raw₂, hround.loop_again heval', hend, ?_⟩
                intro hat
                obtain ⟨given, m₁, htaken, hdel⟩ := hmid hat
                exact ⟨b :: given, m₁, by simpa using htaken, .cons hg hdel⟩

/-! ## `article` after its status line -/

section Body

variable {s : NNTPClientSession π} {status : Int} {content raw' : Bytes}

/-- A refused command takes nothing more off the socket. -/
theorem articleBody_refused (response : Bytes) (hstatus : isPositiveCompletion status = false) :
    (articleBody poco status response).Evals s
      (.error (.nntp "Cannot get article body" response status)) s := by
  simp [articleBody, hstatus]

/-- **Where the parser returns, so does `article`**, with everything up to the end of file taken. -/
theorem articleBody_returns (response : Bytes) (hreads : poco.Reads)
    (hcut : s.m_socket.peerClosed = true → poco.ReadsCut)
    (hstatus : isPositiveCompletion status = true)
    (hf : poco.mailInputStream.Feeds s.m_socket.peerClosed poco.mailInputStream.init
      s.m_socket.unread content raw') {article : α}
    (hok : (poco.read.run [] content).result = .ok article) :
    (articleBody poco status response).Evals s (.ok article) (s.withUnread raw') := by
  obtain ⟨mis, raw₁, heval, hpos⟩ :=
    (readLoop_outcome hreads hcut true [] (by simp) hf).returns article hok
  simp only [articleBody, hstatus, Bool.not_true, Bool.false_eq_true, if_false]
  exact Evals.bind heval ((drain_evals (s := s.withUnread raw₁) hreads hcut hpos).bind (by simp))

/-- **Where the parser throws, `article` leaves at once**: what the parser has not taken stays in the
    socket. -/
theorem articleBody_throws (response : Bytes) (hreads : poco.Reads)
    (hcut : s.m_socket.peerClosed = true → poco.ReadsCut)
    (hstatus : isPositiveCompletion status = true)
    (hf : poco.mailInputStream.Feeds s.m_socket.peerClosed poco.mailInputStream.init
      s.m_socket.unread content raw') {e : Exception}
    (herr : (poco.read.run [] content).result = .error e) :
    ∃ raw₁, (articleBody poco status response).Evals s (.error e) (s.withUnread raw₁) ∧
      ((poco.read.run [] content).atEnd = true → raw₁ = raw') ∧
      ((poco.read.run [] content).atEnd = false → ∃ m₁,
        poco.mailInputStream.Delivers s.m_socket.peerClosed poco.mailInputStream.init
          s.m_socket.unread (poco.read.run [] content).taken m₁ raw₁) := by
  obtain ⟨raw₁, heval, hend, hmid⟩ :=
    (readLoop_outcome hreads hcut true [] (by simp) hf).throws e herr
  refine ⟨raw₁, ?_, hend, fun hat => ?_⟩
  · simp only [articleBody, hstatus, Bool.not_true, Bool.false_eq_true, if_false]
    exact Evals.bind_error heval
  · obtain ⟨given, m₁, htaken, hdel⟩ := hmid hat
    rw [htaken]
    exact ⟨m₁, hdel⟩

end Body

end NNTPClientSession

end NntpPoco
