import NntpPoco.Session.Group

/-!
# `Session.Cut` — connections the peer closes inside a response

Every strict prefix of a response is a place to cut it. The status reader gives back what there is of
the status line (`exchange_cut`), so three digits are enough for a verdict: `stat` always returns one.
`selectNewsGroup` notices the cut up to the first digit of the third number (`replyGroup_cut_iff`), and
`article` notices it only where its parser does. `cut_detected_iff` is the exact condition.
-/

namespace NntpPoco

open Lines Prog Pull NNTPClientSession

variable {π μ α : Type} {poco : Poco π μ α} {server : Server π}

/-! ## A status line cut off -/

/-- What there is of a status line has its status once three bytes are there, and 0 before. -/
theorem statusOf_of_isPrefix {l' l : Bytes} (h : l' <+: l) :
    statusOf l' = if l'.length < 3 then 0 else statusOf l := by
  obtain ⟨k, rfl⟩ := h
  match l' with
  | [] => rfl
  | [a] => rfl
  | [a, b] => rfl
  | a :: b :: c :: rest =>
      have hlen : ¬ (a :: b :: c :: rest).length < 3 := by
        simp only [List.length_cons]
        omega
      rw [if_neg hlen]
      rfl

theorem isContinued_of_isPrefix {l' l : Bytes} (h : l' <+: l) (hl : isContinued l = false) :
    isContinued l' = false := by
  obtain ⟨k, rfl⟩ := h
  match l' with
  | [] => rfl
  | [a] => rfl
  | [a, b] => rfl
  | [a, b, c] => rfl
  | a :: b :: c :: d :: rest => exact hl

theorem StatusLine.of_isPrefix {l' l : Bytes} (h : l' <+: l) (hl : StatusLine l) : StatusLine l' :=
  ⟨hl.breakFree.of_isPrefix h, isContinued_of_isPrefix h hl.single⟩

/-- A refused status line stays refused, however much of it there is. -/
theorem refused_of_isPrefix {l' l : Bytes} (h : l' <+: l)
    (hl : isPositiveCompletion (statusOf l) = false) :
    isPositiveCompletion (statusOf l') = false := by
  rw [statusOf_of_isPrefix h]
  split
  · rfl
  · exact hl

/-- An accepted one is accepted from its third byte on. -/
theorem accepted_of_isPrefix {l' l : Bytes} (h : l' <+: l)
    (hl : isPositiveCompletion (statusOf l) = true) :
    isPositiveCompletion (statusOf l') = true ↔ 3 ≤ l'.length := by
  rw [statusOf_of_isPrefix h]
  by_cases hshort : l'.length < 3
  · rw [if_pos hshort]
    exact ⟨fun h0 => absurd h0 (by decide), fun h3 => absurd h3 (Nat.not_le.mpr hshort)⟩
  · rw [if_neg hshort]
    exact ⟨fun _ => Nat.not_lt.mp hshort, fun _ => hl⟩

theorem three_le_length_of_accepted {l : Bytes} (hl : isPositiveCompletion (statusOf l) = true) :
    3 ≤ l.length := (accepted_of_isPrefix (List.prefix_refl l) hl).mp hl

/-- **The status reader on what is left of the response `l ++ crlf ++ body`**: it gives what there is
    of the status line, and leaves what there is of the body. -/
theorem receiveStatusMessage_cut (hreads : poco.Reads) (hcut : poco.ReadsCut) {t : DialogSocket π}
    (hclosed : t.peerClosed = true) {l body p : Bytes} (hl : StatusLine l)
    (hp : p <+: l ++ (crlf ++ body)) (ht : t.unread = p) :
    ∃ response, (p.length ≤ l.length ∨ 4 ≤ l.length → response = p.take l.length) ∧
      poco.receiveStatusMessage t = (.ok (statusOf (p.take l.length), response),
        { t with unread := p.drop (l.length + 2) }) := by
  by_cases hlong : l.length + 2 ≤ p.length
  · -- the status line is complete
    have hline : l ++ crlf <+: p := by
      refine List.prefix_of_prefix_length_le ?_ hp ?_
      · rw [← List.append_assoc]
        exact List.prefix_append _ _
      · rw [List.length_append]
        exact hlong
    obtain ⟨k, rfl⟩ := hline
    have htake : (l ++ crlf ++ k).take l.length = l := by
      rw [List.append_assoc, List.take_left]
    have hdrop : (l ++ crlf ++ k).drop (l.length + 2) = k := by
      rw [show l.length + 2 = (l ++ (crlf : Bytes)).length by rw [List.length_append]; rfl,
        List.drop_left]
    rw [htake, hdrop]
    rw [List.append_assoc] at ht
    obtain ⟨response, hreceive, htext⟩ := hreads.receiveStatusMessage t l k hl ht
    refine ⟨response, ?_, hreceive⟩
    rintro (hshort | hfour)
    · omega
    · exact htext hfour
  · -- the peer has closed inside it
    have hprefix : p <+: l ++ crlf := by
      refine List.prefix_of_prefix_length_le hp ?_ ?_
      · rw [← List.append_assoc]
        exact List.prefix_append _ _
      · rw [List.length_append]
        show p.length ≤ l.length + 2
        omega
    have hdrop : p.drop (l.length + 2) = [] := List.drop_eq_nil_of_le (by omega)
    rw [hdrop]
    rcases isPrefix_crlf_cases hprefix (by omega) with hpl | rfl
    · have htake : p.take l.length = p := List.take_of_length_le hpl.length_le
      rw [htake]
      exact ⟨p, fun _ => rfl,
        hcut.receiveStatusMessage t p (hl.of_isPrefix hpl) hclosed ht⟩
    · obtain ⟨response, hreceive, htext⟩ := hcut.receiveStatusMessageCr t l hl hclosed ht
      rw [List.take_left]
      refine ⟨response, ?_, hreceive⟩
      rintro (hshort | hfour)
      · simp only [List.length_append, List.length_singleton] at hshort
        omega
      · exact htext hfour

/-- **The exchange on a connection cut inside the response.** -/
theorem exchange_cut (hwrites : poco.Writes server) (hreads : poco.Reads) (hcut : poco.ReadsCut)
    {op : Operation} {s : NNTPClientSession π} (hconn : s.m_socket.Connected)
    (hunread : s.m_socket.unread = []) {l body p : Bytes} (hl : StatusLine l)
    (hp : p <+: l ++ (crlf ++ body))
    (hreact : (server.react s.m_socket.peer op.line).2 = (p, true)) :
    ∃ response, (p.length ≤ l.length ∨ 4 ≤ l.length → response = p.take l.length) ∧
      (exchange poco (op.send poco) op.line).Evals s (.ok (statusOf (p.take l.length), response))
        (s.answered server op.line (p.drop (l.length + 2)) (statusOf (p.take l.length))
          response) := by
  have hclosed : (server.deliver op.line s.m_socket).peerClosed = true := congrArg Prod.snd hreact
  have hraw : (server.deliver op.line s.m_socket).unread = p := by
    show s.m_socket.unread ++ (server.react s.m_socket.peer op.line).2.1 = p
    rw [hunread, hreact]
    rfl
  obtain ⟨response, htext, hreceive⟩ := receiveStatusMessage_cut hreads hcut hclosed hl hp hraw
  refine ⟨response, htext, ?_⟩
  have hsent : (call (op.send poco) (sentEvent op.line)).Evals s (.ok ())
      (s.after (server.deliver op.line s.m_socket) [.sent op.line]) :=
    call_evals (op.send_eq hwrites hconn)
  have hread : (call poco.receiveStatusMessage statusEvent).Evals
      (s.after (server.deliver op.line s.m_socket) [.sent op.line]) _ _ := call_evals hreceive
  rw [after_after] at hread
  exact hsent.bind hread

/-! ## A GROUP line cut off -/

/-- A prefix of `a ++ c :: b` ends in `a`, or has the `c` and ends in `b`. -/
theorem isPrefix_append_cons {β : Type} {p a b : List β} {c : β} (h : p <+: a ++ c :: b) :
    p <+: a ∨ ∃ q, p = a ++ c :: q ∧ q <+: b := by
  rcases List.prefix_or_prefix_of_prefix h (List.prefix_append a (c :: b)) with hp | ⟨k, rfl⟩
  · exact Or.inl hp
  · have hk : k <+: c :: b := (List.prefix_append_right_inj a).mp h
    rcases List.prefix_cons_iff.mp hk with rfl | ⟨q, rfl, hq⟩
    · exact Or.inl (by simp)
    · exact Or.inr ⟨q, rfl, hq⟩

/-- A decimal number below 2^32, as a reply has it. -/
def IsUInt (str : Bytes) : Prop := Poco.IsDecimal str ∧ Poco.decimal str < 2 ^ 32

instance (str : Bytes) : Decidable (IsUInt str) := inferInstanceAs (Decidable (_ ∧ _))

/-- The status line of an accepted GROUP: a code and three numbers with single spaces between them,
    and whatever follows behind a space. -/
structure GroupLine where
  code : Bytes
  numArticles : Bytes
  lowArticle : Bytes
  highArticle : Bytes
  tail : Bytes
  code_noSpace : (32 : UInt8) ∉ code
  numArticles_isUInt : IsUInt numArticles
  lowArticle_isUInt : IsUInt lowArticle
  highArticle_isUInt : IsUInt highArticle
  tail_cases : tail = [] ∨ ∃ name, tail = 32 :: name

namespace GroupLine

/-- The line up to where its third number begins. -/
def upToHigh (g : GroupLine) : Bytes :=
  g.code ++ 32 :: (g.numArticles ++ 32 :: (g.lowArticle ++ [32]))

def encode (g : GroupLine) : Bytes := g.upToHigh ++ (g.highArticle ++ g.tail)

end GroupLine

theorem IsUInt.noSpace {str : Bytes} (h : IsUInt str) : (32 : UInt8) ∉ str := by
  intro hmem
  have hdigit := List.all_eq_true.mp h.1.2 32 hmem
  exact absurd hdigit (by decide)

/-- Reading on, a decimal number does not get smaller. -/
theorem decimal_append_ge (a b : Bytes) : Poco.decimal a ≤ Poco.decimal (a ++ b) := by
  -- over any start value
  have hfold : ∀ (b : Bytes) (n : ℕ), n ≤ b.foldl (fun n b => 10 * n + (b.toNat - 48)) n := by
    intro b
    induction b with
    | nil => exact fun n => Nat.le_refl n
    | cons x b ih =>
        intro n
        have hrest := ih (10 * n + (x.toNat - 48))
        rw [List.foldl_cons]
        omega
  unfold Poco.decimal
  rw [List.foldl_append]
  exact hfold b _

/-- What there is of a number is a number, if there is anything of it. -/
theorem IsUInt.of_isPrefix {q str : Bytes} (h : IsUInt str) (hq : q <+: str) (hne : q ≠ []) :
    IsUInt q := by
  obtain ⟨k, rfl⟩ := hq
  obtain ⟨⟨_, hall⟩, hlt⟩ := h
  rw [List.all_append, Bool.and_eq_true] at hall
  exact ⟨⟨hne, hall.1⟩, Nat.lt_of_le_of_lt (decimal_append_ge q k) hlt⟩

theorem parseUnsigned_isUInt (hparses : poco.ParsesUnsigned) {str : Bytes} (h : IsUInt str) :
    (poco.parseUnsigned str).toOption = some (UInt32.ofNat (Poco.decimal str)) := by
  rw [hparses.small str h.1 h.2]
  rfl

/-- A token and a space in front of a reply. -/
theorem replyTokens_cons {a : Bytes} (ha : (32 : UInt8) ∉ a) (b : Bytes) :
    replyTokens (a ++ 32 :: b) = a :: b.splitOn 32 := by
  have hne : a ++ 32 :: b ≠ [] := by simp
  rw [replyTokens, if_neg hne, List.splitOn_append_cons_self_of_not_mem ha]

theorem replyTokens_of_noSpace {a : Bytes} (ha : (32 : UInt8) ∉ a) :
    (replyTokens a).length ≤ 1 := by
  unfold replyTokens
  by_cases hne : a = []
  · rw [if_pos hne]
    exact Nat.zero_le 1
  · rw [if_neg hne, List.splitOn_eq_singleton ha]
    exact Nat.le_refl 1

/-- **Up to the first digit of the third number the cut is noticed**: there is no third number, or it
    is the empty string. -/
theorem replyNumber_cut_none (hparses : poco.ParsesUnsigned) (g : GroupLine) {reply : Bytes}
    (h : reply <+: g.upToHigh) : replyNumber poco reply 3 = none := by
  have hshort : ∀ {tokens : List Bytes}, tokens.length ≤ 3 → tokens[3]? = none :=
    fun hlen => List.getElem?_eq_none hlen
  unfold replyNumber
  rcases isPrefix_append_cons h with hcode | ⟨q, rfl, hq⟩
  · have hspace : (32 : UInt8) ∉ reply := fun hmem => g.code_noSpace (hcode.subset hmem)
    have hlen := replyTokens_of_noSpace hspace
    rw [hshort (by omega)]
    rfl
  rw [replyTokens_cons g.code_noSpace]
  rcases isPrefix_append_cons hq with hcount | ⟨q', rfl, hq'⟩
  · have hspace : (32 : UInt8) ∉ q :=
      fun hmem => g.numArticles_isUInt.noSpace (hcount.subset hmem)
    rw [List.splitOn_eq_singleton hspace]
    rfl
  rw [List.splitOn_append_cons_self_of_not_mem g.numArticles_isUInt.noSpace]
  rcases isPrefix_append_cons hq' with hlow | ⟨q'', rfl, hq''⟩
  · have hspace : (32 : UInt8) ∉ q' :=
      fun hmem => g.lowArticle_isUInt.noSpace (hlow.subset hmem)
    rw [List.splitOn_eq_singleton hspace]
    rfl
  · -- all three spaces are there, and nothing behind the last
    obtain rfl := List.prefix_nil.mp hq''
    rw [List.splitOn_append_cons_self_of_not_mem g.lowArticle_isUInt.noSpace, List.splitOn_nil]
    obtain ⟨e, he⟩ := hparses.empty
    show (poco.parseUnsigned []).toOption = none
    rw [he]
    rfl

/-- **From the first digit on it is not**: the three numbers are there, the third one perhaps cut. -/
theorem replyGroup_cut_some (hparses : poco.ParsesUnsigned) (g : GroupLine) (newsgroup : Bytes)
    {q : Bytes} (hne : q ≠ []) (hq : q <+: g.highArticle ++ g.tail) :
    ∃ group, replyGroup poco newsgroup (g.upToHigh ++ q) = some group := by
  -- the third token is the whole number, or what there is of it
  obtain ⟨high, more, hsplit, hhigh⟩ : ∃ high more, q.splitOn 32 = high :: more ∧ IsUInt high := by
    have hcut : q <+: g.highArticle ∨ ∃ q', q = g.highArticle ++ 32 :: q' := by
      rcases g.tail_cases with htail | ⟨name, htail⟩
      · rw [htail, List.append_nil] at hq
        exact Or.inl hq
      · rw [htail] at hq
        rcases isPrefix_append_cons hq with hq | ⟨q', rfl, _⟩
        · exact Or.inl hq
        · exact Or.inr ⟨q', rfl⟩
    rcases hcut with hq | ⟨q', rfl⟩
    · have hhigh := g.highArticle_isUInt.of_isPrefix hq hne
      exact ⟨q, [], List.splitOn_eq_singleton hhigh.noSpace, hhigh⟩
    · exact ⟨g.highArticle, q'.splitOn 32,
        List.splitOn_append_cons_self_of_not_mem g.highArticle_isUInt.noSpace _,
        g.highArticle_isUInt⟩
  have htokens : replyTokens (g.upToHigh ++ q) =
      g.code :: g.numArticles :: g.lowArticle :: high :: more := by
    have hbytes : g.upToHigh ++ q =
        g.code ++ 32 :: (g.numArticles ++ 32 :: (g.lowArticle ++ 32 :: q)) := by
      simp [GroupLine.upToHigh]
    rw [hbytes, replyTokens_cons g.code_noSpace,
      List.splitOn_append_cons_self_of_not_mem g.numArticles_isUInt.noSpace,
      List.splitOn_append_cons_self_of_not_mem g.lowArticle_isUInt.noSpace, hsplit]
  have hnumber : ∀ {index : ℕ} {str : Bytes},
      (replyTokens (g.upToHigh ++ q))[index]? = some str → IsUInt str →
      replyNumber poco (g.upToHigh ++ q) index = some (UInt32.ofNat (Poco.decimal str)) := by
    intro index str hindex hstr
    unfold replyNumber
    rw [hindex]
    exact parseUnsigned_isUInt hparses hstr
  unfold replyGroup
  rw [hnumber (by rw [htokens]; rfl) g.numArticles_isUInt,
    hnumber (by rw [htokens]; rfl) g.lowArticle_isUInt, hnumber (by rw [htokens]; rfl) hhigh]
  exact ⟨_, rfl⟩

/-- **Where a GROUP line may be cut unnoticed.** -/
theorem replyGroup_cut_iff (hparses : poco.ParsesUnsigned) (g : GroupLine) (newsgroup : Bytes)
    {reply : Bytes} (h : reply <+: g.encode) :
    replyGroup poco newsgroup reply = none ↔ reply.length ≤ g.upToHigh.length := by
  constructor
  · intro hnone
    by_contra hlong
    have hup : g.upToHigh <+: reply :=
      List.prefix_of_prefix_length_le (List.prefix_append _ _) h (by omega)
    obtain ⟨q, rfl⟩ := hup
    have hne : q ≠ [] := by
      rintro rfl
      rw [List.append_nil] at hlong
      exact hlong (Nat.le_refl _)
    obtain ⟨group, hsome⟩ := replyGroup_cut_some hparses g newsgroup hne
      ((List.prefix_append_right_inj _).mp h)
    rw [hsome] at hnone
    exact absurd hnone (by simp)
  · intro hshort
    have hup : reply <+: g.upToHigh :=
      List.prefix_of_prefix_length_le h (List.prefix_append _ _) hshort
    unfold replyGroup
    rw [replyNumber_cut_none hparses g hup]
    cases replyNumber poco reply 1 with
    | none => rfl
    | some numArticles =>
        cases replyNumber poco reply 2 with
        | none => rfl
        | some lowArticle => rfl

/-! ## The cut and its caller -/

/-- The cut of `r` to `p` shows in how `op` ends. -/
inductive CutDetected (poco : Poco π μ α) (p : Bytes) : Operation → Response → Prop
  /-- a refusal is one with or without its end -/
  | refused {op l} (hop : op.parses = true ∨ ∃ newsgroup, op = .selectNewsGroup newsgroup)
      (hstatus : isPositiveCompletion (statusOf l) = false) : CutDetected poco p op (.line l)
  /-- a GROUP line that ends at the first digit of its third number, or before -/
  | number {newsgroup} (g : GroupLine) (hshort : p.length ≤ g.upToHigh.length) :
      CutDetected poco p (.selectNewsGroup newsgroup) (.line g.encode)
  /-- an ARTICLE whose status is not there -/
  | status {op l ls} (hop : op.parses = true) (hshort : p.length < 3) :
      CutDetected poco p op (.block l ls)
  /-- an ARTICLE whose parser does not accept what there is of the article -/
  | parser {op l ls content left e} (hop : op.parses = true)
      (hf : poco.mailInputStream.Feeds true poco.mailInputStream.init (p.drop (l.length + 2))
        content left)
      (herr : (poco.read.run [] content).result = .error e) : CutDetected poco p op (.block l ls)

section Handle

variable {s : NNTPClientSession π} {p l : Bytes} {status : Int} {response : Bytes}

/-- `stat` throws nothing once it has a status. -/
theorem statTail_not_throws (status : Int) (response : Bytes) :
    ¬ Throws (statTail (status, response) : Method π Bool) s := by
  rw [throws_iff_of_evals (statTail_evals status response)]
  rintro ⟨e, he⟩
  exact absurd he (by simp)

/-- `selectNewsGroup` throws exactly where the reply describes no group. -/
theorem groupTail_throws_iff (htokenizes : poco.Tokenizes) (newsgroup : Bytes)
    (h : isPositiveCompletion status = true) :
    Throws (groupTail poco newsgroup (status, response)) s ↔
      replyGroup poco newsgroup response = none := by
  rw [throws_iff_of_evals (groupTail_accepted poco h newsgroup response)]
  cases hgroup : replyGroup poco newsgroup response with
  | none => exact ⟨fun _ => rfl, fun _ => (groupOutcome_of_none htokenizes hgroup s).1⟩
  | some g =>
      rw [(groupOutcome_of_some htokenizes hgroup s).1]
      exact ⟨fun ⟨e, he⟩ => absurd he (by simp), fun hnone => absurd hnone (by simp)⟩

/-- `article` throws exactly where its parser does. -/
theorem articleTail_throws_iff (hreads : poco.Reads) (hcut : poco.ReadsCut)
    (h : isPositiveCompletion status = true) (hclosed : s.m_socket.peerClosed = true)
    {content left : Bytes} (hf : poco.mailInputStream.Feeds true poco.mailInputStream.init
      s.m_socket.unread content left) :
    Throws (articleTail poco (status, response)) s ↔
      ∃ e, (poco.read.run [] content).result = .error e := by
  rw [← hclosed] at hf
  cases hresult : (poco.read.run [] content).result with
  | ok article =>
      have heval := articleBody_returns response hreads (fun _ => hcut) h hf hresult
      exact throws_iff_of_evals heval
  | error e =>
      obtain ⟨raw, heval, _⟩ := articleBody_throws response hreads (fun _ => hcut) h hf hresult
      exact throws_iff_of_evals heval

theorem tail_throws_of_refused {op : Operation}
    (hop : op.parses = true ∨ ∃ newsgroup, op = .selectNewsGroup newsgroup)
    (h : isPositiveCompletion status = false) :
    Throws (op.handle poco (status, response)) s := by
  rcases hop with hparses | ⟨newsgroup, rfl⟩
  · rw [Operation.handle_of_parses hparses, throws_map_iff]
    exact ⟨_, s, articleBody_refused response h⟩
  · show Throws (Result.active <$> groupTail poco newsgroup (status, response)) s
    rw [throws_map_iff]
    exact ⟨_, s, groupTail_refused h newsgroup response⟩

end Handle

section Cut

variable {s : NNTPClientSession π} {p : Bytes}

theorem take_isPrefix {l m : Bytes} (hp : p <+: l ++ m) : p.take l.length <+: l := by
  refine List.prefix_of_prefix_length_le ((List.take_prefix _ _).trans hp)
    (List.prefix_append l m) ?_
  rw [List.length_take]
  exact Nat.min_le_left _ _

theorem GroupLine.upToHigh_length (g : GroupLine) : 3 ≤ g.upToHigh.length := by
  unfold GroupLine.upToHigh
  simp only [List.length_append, List.length_cons, List.length_nil]
  omega

theorem GroupLine.upToHigh_lt (g : GroupLine) : g.upToHigh.length < g.encode.length := by
  have hhigh := List.length_pos_of_ne_nil g.highArticle_isUInt.1.1
  unfold GroupLine.encode
  simp only [List.length_append]
  omega

/-- **An accepted GROUP cut off**: noticed up to the first digit of the third number. -/
theorem group_cut_iff (hwrites : poco.Writes server) (hreads : poco.Reads) (hcut : poco.ReadsCut)
    (htokenizes : poco.Tokenizes) (hparses : poco.ParsesUnsigned) (newsgroup : Bytes)
    (g : GroupLine) (hl : StatusLine g.encode)
    (hstatus : isPositiveCompletion (statusOf g.encode) = true)
    (hconn : s.m_socket.Connected) (hunread : s.m_socket.unread = [])
    (hp : p <+: g.encode ++ (crlf ++ [])) (hreact : (server.react s.m_socket.peer
      (Operation.selectNewsGroup newsgroup).line).2 = (p, true)) :
    Throws ((Operation.selectNewsGroup newsgroup).run poco) s ↔ p.length ≤ g.upToHigh.length := by
  have hup := g.upToHigh_length
  have hlt := g.upToHigh_lt
  obtain ⟨response, htext, hexchange⟩ :=
    exchange_cut hwrites hreads hcut hconn hunread hl hp hreact
  have hresponse : response = p.take g.encode.length := htext (Or.inr (by omega))
  have hline : p.take g.encode.length <+: g.encode := take_isPrefix hp
  have hlen : (p.take g.encode.length).length = min g.encode.length p.length := List.length_take
  rw [Operation.run_eq, throws_bind_iff hexchange]
  cases haccepted : isPositiveCompletion (statusOf (p.take g.encode.length)) with
  | false =>
      -- fewer than three bytes: the status is 0, a refusal, and the line ends before its numbers
      have hshort : ¬ 3 ≤ (p.take g.encode.length).length := by
        rw [← accepted_of_isPrefix hline hstatus, haccepted]
        simp
      exact ⟨fun _ => by omega,
        fun _ => tail_throws_of_refused (Or.inr ⟨newsgroup, rfl⟩) haccepted⟩
  | true =>
      show Throws (Result.active <$> groupTail poco newsgroup _) _ ↔ _
      rw [throws_map_iff, groupTail_throws_iff htokenizes newsgroup haccepted, hresponse,
        replyGroup_cut_iff hparses g newsgroup hline]
      omega

/-- **A STAT cut off** is a verdict all the same. -/
theorem stat_cut_not_throws (hwrites : poco.Writes server) (hreads : poco.Reads)
    (hcut : poco.ReadsCut) (n : UInt32) {l : Bytes} (hl : StatusLine l)
    (hconn : s.m_socket.Connected) (hunread : s.m_socket.unread = [])
    (hp : p <+: l ++ (crlf ++ []))
    (hreact : (server.react s.m_socket.peer (Operation.stat n).line).2 = (p, true)) :
    ¬ Throws ((Operation.stat n).run poco) s := by
  obtain ⟨response, _, hexchange⟩ := exchange_cut hwrites hreads hcut hconn hunread hl hp hreact
  rw [Operation.run_eq, throws_bind_iff hexchange]
  show ¬ Throws (Result.verdict <$> statTail _) _
  rw [throws_map_iff]
  exact statTail_not_throws _ _

/-- A refusal cut off is a refusal all the same. -/
theorem refused_cut_throws (hwrites : poco.Writes server) (hreads : poco.Reads)
    (hcut : poco.ReadsCut) {op : Operation}
    (hop : op.parses = true ∨ ∃ newsgroup, op = .selectNewsGroup newsgroup) {l : Bytes}
    (hl : StatusLine l) (hstatus : isPositiveCompletion (statusOf l) = false)
    (hconn : s.m_socket.Connected) (hunread : s.m_socket.unread = [])
    (hp : p <+: l ++ (crlf ++ []))
    (hreact : (server.react s.m_socket.peer op.line).2 = (p, true)) :
    Throws (op.run poco) s := by
  obtain ⟨response, _, hexchange⟩ := exchange_cut hwrites hreads hcut hconn hunread hl hp hreact
  rw [Operation.run_eq, throws_bind_iff hexchange]
  exact tail_throws_of_refused hop (refused_of_isPrefix (take_isPrefix hp) hstatus)

/-- **An accepted ARTICLE cut off** is noticed before its status is there, and then only by the
    parser. -/
theorem article_cut_iff (hwrites : poco.Writes server) (hreads : poco.Reads) (hcut : poco.ReadsCut)
    (hends : poco.EndsWithStream) {op : Operation} (hop : op.parses = true) {l : Bytes}
    {ls : List Bytes} (hl : StatusLine l) (hstatus : isPositiveCompletion (statusOf l) = true)
    (hconn : s.m_socket.Connected) (hunread : s.m_socket.unread = [])
    (hp : p <+: l ++ (crlf ++ encodeBlock ls))
    (hreact : (server.react s.m_socket.peer op.line).2 = (p, true)) :
    Throws (op.run poco) s ↔ CutDetected poco p op (.block l ls) := by
  obtain ⟨response, _, hexchange⟩ := exchange_cut hwrites hreads hcut hconn hunread hl hp hreact
  obtain ⟨content, left, hf⟩ := hends (p.drop (l.length + 2))
  have hline : p.take l.length <+: l := take_isPrefix hp
  have hthree : 3 ≤ (p.take l.length).length ↔ 3 ≤ p.length := by
    have hl3 := three_le_length_of_accepted hstatus
    rw [List.length_take]
    omega
  rw [Operation.run_eq, throws_bind_iff hexchange]
  cases haccepted : isPositiveCompletion (statusOf (p.take l.length)) with
  | false =>
      -- fewer than three bytes: the status is 0, a refusal
      have hshort : p.length < 3 := by
        rw [← Nat.not_le, ← hthree, ← accepted_of_isPrefix hline hstatus, haccepted]
        simp
      exact ⟨fun _ => .status hop hshort,
        fun _ => tail_throws_of_refused (Or.inl hop) haccepted⟩
  | true =>
      have hlong : 3 ≤ p.length := hthree.mp ((accepted_of_isPrefix hline hstatus).mp haccepted)
      rw [Operation.handle_of_parses hop, throws_map_iff,
        articleTail_throws_iff hreads hcut haccepted (congrArg Prod.snd hreact) hf]
      constructor
      · rintro ⟨e, herr⟩
        exact .parser hop hf herr
      · intro hdetected
        cases hdetected with
        | status _ hshort => omega
        | parser _ hf' herr =>
            rw [(hf.unique hf').1]
            exact ⟨_, herr⟩

/-- **A connection cut inside a response.** Whatever the well-formed response and wherever the peer
    closes in it, `selectNewsGroup`, `stat` and both overloads of `article` leave by an exception if
    and only if the cut is one of `CutDetected`. -/
theorem cut_detected_iff (hwrites : poco.Writes server) (hreads : poco.Reads)
    (hcut : poco.ReadsCut) (hends : poco.EndsWithStream) (htokenizes : poco.Tokenizes)
    (hparses : poco.ParsesUnsigned) {op : Operation}
    (hop : op.parses = true ∨ op.hasBlock = false) {r : Response} (hr : op.Answers r)
    (hgroup : ∀ newsgroup, op = .selectNewsGroup newsgroup →
      isPositiveCompletion (statusOf r.status) = true → ∃ g : GroupLine, r.status = g.encode)
    (hconn : s.m_socket.Connected) (hunread : s.m_socket.unread = []) (hp : p <+: r.encode)
    (hreact : (server.react s.m_socket.peer op.line).2 = (p, true)) :
    Throws (op.run poco) s ↔ CutDetected poco p op r := by
  cases hr with
  | @single l hl hblock =>
      cases op with
      | selectNewsGroup newsgroup =>
          cases hstatus : isPositiveCompletion (statusOf l) with
          | false =>
              have hthrows := refused_cut_throws hwrites hreads hcut (Or.inr ⟨newsgroup, rfl⟩) hl
                hstatus hconn hunread hp hreact
              exact ⟨fun _ => .refused (Or.inr ⟨newsgroup, rfl⟩) hstatus, fun _ => hthrows⟩
          | true =>
              constructor
              · intro hthrows
                obtain ⟨g, rfl⟩ := hgroup newsgroup rfl hstatus
                exact .number g ((group_cut_iff hwrites hreads hcut htokenizes hparses newsgroup g hl
                  hstatus hconn hunread hp hreact).mp hthrows)
              · intro hdetected
                cases hdetected with
                | refused _ hrefused => exact absurd (hrefused.symm.trans hstatus) (by simp)
                | number g hshort =>
                    exact (group_cut_iff hwrites hreads hcut htokenizes hparses newsgroup g hl
                      hstatus hconn hunread hp hreact).mpr hshort
      | stat n =>
          have hreturns := stat_cut_not_throws hwrites hreads hcut n hl hconn hunread hp hreact
          refine ⟨fun hthrows => absurd hthrows hreturns, ?_⟩
          intro hdetected
          cases hdetected with
          | refused hop _ => exact absurd hop (by simp [Operation.parses])
      | _ => exact absurd hblock (by simp [Operation.hasBlock])
  | @refused l hl hblock hstatus =>
      have hparse : op.parses = true := by
        rcases hop with hop | hop
        · exact hop
        · exact absurd (hop.symm.trans hblock) (by simp)
      rw [Operation.accepts_of_parses hparse] at hstatus
      have hthrows := refused_cut_throws hwrites hreads hcut (Or.inl hparse) hl hstatus hconn hunread
        hp hreact
      exact ⟨fun _ => .refused (Or.inl hparse) hstatus, fun _ => hthrows⟩
  | @accepted l ls hl hblock hstatus hls =>
      have hparse : op.parses = true := by
        rcases hop with hop | hop
        · exact hop
        · exact absurd (hop.symm.trans hblock) (by simp)
      rw [Operation.accepts_of_parses hparse] at hstatus
      exact article_cut_iff hwrites hreads hcut hends hparse hl hstatus hconn hunread hp hreact

end Cut

/-- The reply that `selectNewsGroup` has for an example in its body. -/
def boostGroup : GroupLine where
  code := text "211"
  numArticles := text "90986"
  lowArticle := text "1"
  highArticle := text "91036"
  tail := text " gmane.comp.lib.boost.user"
  code_noSpace := by decide
  numArticles_isUInt := by decide
  lowArticle_isUInt := by decide
  highArticle_isUInt := by decide
  tail_cases := Or.inr ⟨_, rfl⟩

theorem cut_detected_iff_boost :
    let p := text "211 90986 1 "
    let poco := Poco.reference (Server.saying p true) Reference.readAll id
    let op := Operation.selectNewsGroup (text "gmane.comp.lib.boost.user")
    Throws (op.run poco) openedSession ↔ CutDetected poco p op (.line boostGroup.encode) := by
  intro p poco op
  have hprefix : p <+: (Response.line boostGroup.encode).encode := by decide
  have hline : StatusLine boostGroup.encode := ⟨by decide, rfl⟩
  exact cut_detected_iff Reference.writes Reference.reads Reference.readsCut
    Reference.endsWithStream Reference.tokenizes Reference.parsesUnsigned (Or.inr rfl)
    (.single hline rfl) (fun _ _ _ => ⟨boostGroup, rfl⟩) ⟨rfl, rfl⟩ rfl hprefix rfl

/-- A GROUP line cut inside its last number is taken for a complete one with a smaller number, and a
    STAT that got two bytes of its answer for one that says the article does not exist. -/
theorem cut_taken_for_complete :
    let p := text "211 90986 1 9"
    let poco := Poco.reference (Server.saying p true) Reference.readAll id
    let q := text "22"
    let poco' := Poco.reference (Server.saying q true) Reference.readAll id
    (p <+: (Response.line boostGroup.encode).encode ∧
      p ≠ (Response.line boostGroup.encode).encode ∧
      ∃ t, ((Operation.selectNewsGroup (text "g")).run poco).Evals openedSession
        (.ok (.active ⟨text "g", 90986, 1, 9⟩)) t) ∧
    (q <+: (Response.line (text "223 5")).encode ∧ q ≠ (Response.line (text "223 5")).encode ∧
      ∃ t, ((Operation.stat 5).run poco').Evals openedSession (.ok (.verdict false)) t) := by
  intro p poco q poco'
  have hgroup : ((Operation.selectNewsGroup (text "g")).run poco).Evals openedSession
      (.ok (.active ⟨text "g", 90986, 1, 9⟩)) _ := .of_run 1 rfl
  have hstat : ((Operation.stat 5).run poco').Evals openedSession (.ok (.verdict false)) _ :=
    .of_run 1 rfl
  exact ⟨⟨by decide, by decide, _, hgroup⟩, ⟨by decide, by decide, _, hstat⟩⟩

end NntpPoco
