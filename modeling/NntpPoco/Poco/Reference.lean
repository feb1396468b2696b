import NntpPoco.Poco.Laws

/-!
# `Poco.Reference` — functions that satisfy the laws

One instance of `Poco`, written after the documented behaviour of each function, so that the laws are
known to be satisfiable and a run can be evaluated. The peer, the parser behind `NewsArticle::read`
and the way an article is shown stay parameters.
-/

namespace NntpPoco

open Lines Pull

/-! ## `MailStreamBuf` -/

namespace MailStreamBuf

/-- How much of `CR LF . CR LF` has been seen. -/
inductive Seen
  | data
  | cr
  | crLf
  | crLfDot
  | crLfDotCr
  | all
  deriving DecidableEq, Repr

end MailStreamBuf

/-- The state of a `MailInputStream`: letters are held back while they may still belong to the end of
    the block, and `ready` to be given once they do not. -/
structure MailStreamBuf where
  seen : MailStreamBuf.Seen
  held : Bytes
  ready : Bytes
  deriving DecidableEq, Repr

namespace MailStreamBuf

/-- A letter from below. The second dot at the start of a line is dropped; the end of the block takes
    the line end before it away. -/
def letter (m : MailStreamBuf) (b : UInt8) : MailStreamBuf :=
  if b = 13 then
    match m.seen with
    | .crLfDot => ⟨.crLfDotCr, m.held ++ [b], []⟩
    | _ => ⟨.cr, m.held ++ [b], []⟩
  else if b = 10 then
    match m.seen with
    | .cr => ⟨.crLf, m.held ++ [b], []⟩
    | .crLfDotCr => ⟨.all, [], m.held.take (m.held.length - 4)⟩
    | _ => ⟨.data, [], m.held ++ [b]⟩
  else if b = 46 then
    match m.seen with
    | .crLf => ⟨.crLfDot, m.held ++ [b], []⟩
    | .crLfDot => ⟨.data, [], m.held⟩
    | _ => ⟨.data, [], m.held ++ [b]⟩
  else ⟨.data, [], m.held ++ [b]⟩

/-- The end of the stream below. -/
def flush (m : MailStreamBuf) : MailStreamBuf := ⟨.all, [], m.held⟩

def decoder : Decoder UInt8 MailStreamBuf where
  init := ⟨.crLf, [], []⟩
  next m :=
    match m.ready with
    | b :: ready => .give (some b) { m with ready := ready }
    | [] =>
      if m.seen = .all then .give none m
      else .take fun b => match b with
        | some b => m.letter b
        | none => m.flush

variable {closed : Bool} {held raw content raw' : Bytes}

theorem feeds_all : decoder.Feeds closed ⟨.all, held, []⟩ raw [] raw := .eof (.give rfl)

/-- Letters that are ready are given first. -/
theorem feeds_ready {seen : Seen} (ready : Bytes)
    (h : decoder.Feeds closed ⟨seen, held, []⟩ raw content raw') :
    decoder.Feeds closed ⟨seen, held, ready⟩ raw (ready ++ content) raw' := by
  induction ready with
  | nil => exact h
  | cons b ready ih => exact .more (.give rfl) ih

theorem feeds_letter {seen : Seen} {b : UInt8} (hs : seen ≠ .all)
    (h : decoder.Feeds closed (letter ⟨seen, held, []⟩ b) raw content raw') :
    decoder.Feeds closed ⟨seen, held, []⟩ (b :: raw) content raw' :=
  .take (by simp [decoder, hs]; rfl) h

/-- Inside a line every letter is given as it comes. -/
theorem feeds_data {l : Bytes} (hl : BreakFree l)
    (h : decoder.Feeds closed ⟨.data, [], []⟩ raw content raw') :
    decoder.Feeds closed ⟨.data, [], []⟩ (l ++ raw) (l ++ content) raw' := by
  induction l with
  | nil => exact h
  | cons b l ih =>
      obtain ⟨⟨hcr, hlf⟩, hl'⟩ := breakFree_cons.mp hl
      have hb : letter ⟨.data, [], []⟩ b = ⟨.data, [], [b]⟩ := by
        -- neither CR nor LF, and a dot only counts at the start of a line
        have h13 : b ≠ 13 := hcr
        have h10 : b ≠ 10 := hlf
        by_cases h46 : b = 46 <;> simp [letter, h13, h10, h46]
      apply feeds_letter (by simp)
      rw [hb]
      exact feeds_ready [b] (ih hl')

/-- A line end is held back. -/
theorem feeds_crlf {seen : Seen} (hs : seen = .data ∨ seen = .crLf)
    (h : decoder.Feeds closed ⟨.crLf, held ++ crlf, []⟩ raw content raw') :
    decoder.Feeds closed ⟨seen, held, []⟩ (crlf ++ raw) content raw' := by
  have hheld : held ++ crlf = (held ++ [13]) ++ [(10 : UInt8)] := by
    simp [crlf, LineSyntax.cr, LineSyntax.lf]
  rw [hheld] at h
  rcases hs with rfl | rfl
  · exact feeds_letter (b := 13) (by simp) (feeds_letter (b := 10) (by simp) h)
  · exact feeds_letter (b := 13) (by simp) (feeds_letter (b := 10) (by simp) h)

/-- The first letter of a line, its stuffing removed, lets go what was held. -/
theorem feeds_first {x : UInt8} {l : Bytes} (hl : BreakFree (x :: l))
    (h : decoder.Feeds closed ⟨.data, [], []⟩ raw content raw') :
    decoder.Feeds closed ⟨.crLf, held, []⟩ (stuff (x :: l) ++ raw) (held ++ (x :: l) ++ content)
      raw' := by
  obtain ⟨⟨hcr, hlf⟩, hl'⟩ := breakFree_cons.mp hl
  have hrest := feeds_ready (held ++ [x]) (feeds_data hl' h)
  simp only [List.append_assoc, List.singleton_append] at hrest ⊢
  by_cases hx : x = 46
  -- a stuffed line: the first of its two dots is dropped
  · subst hx
    exact feeds_letter (b := 46) (by simp) (feeds_letter (b := 46) (by simp) hrest)
  · have h13 : x ≠ 13 := hcr
    have h10 : x ≠ 10 := hlf
    have hstuff : stuff (x :: l) = x :: l := if_neg hx
    have hb : letter ⟨.crLf, held, []⟩ x = ⟨.data, [], held ++ [x]⟩ := by
      simp [letter, h13, h10, hx]
    rw [hstuff]
    apply feeds_letter (by simp)
    rw [hb]
    exact hrest

/-- The line that ends the block gives up the line end held before it. -/
theorem feeds_dot :
    decoder.Feeds closed ⟨.crLf, held, []⟩ (LineSyntax.dot :: crlf ++ raw)
      (held.take (held.length - 2)) raw := by
  have htake : (held ++ [46] ++ [(13 : UInt8)]).take ((held ++ [46] ++ [(13 : UInt8)]).length - 4)
      = held.take (held.length - 2) := by
    rw [List.append_assoc, List.take_append_of_le_length (by simp)]
    simp
  have hall : decoder.Feeds closed ⟨.all, [], held.take (held.length - 2)⟩ raw
      (held.take (held.length - 2) ++ []) raw := feeds_ready _ feeds_all
  rw [List.append_nil, ← htake] at hall
  rw [← htake]
  exact feeds_letter (b := 46) (by simp)
    (feeds_letter (b := 13) (by simp) (feeds_letter (b := 10) (by simp) hall))

/-- What a block gives after `held`: its lines, with CRLF between them. -/
def blockText (held : Bytes) : List Bytes → Bytes
  | [] => held.take (held.length - 2)
  | l :: ls => held ++ List.intercalate crlf (l :: ls)

/-- A whole block. -/
theorem feeds_block {ls : List Bytes} (hls : ∀ l ∈ ls, BreakFree l) :
    decoder.Feeds closed ⟨.crLf, held, []⟩ (encodeBlock ls ++ raw) (blockText held ls) raw := by
  -- on the lines; `held` is the line end in front of the line at hand, still held back
  induction ls generalizing held with
  | nil => exact feeds_dot
  | cons l ls ih =>
      have hrest : ∀ held', decoder.Feeds closed ⟨.crLf, held', []⟩ (encodeBlock ls ++ raw)
          (blockText held' ls) raw :=
        fun held' => ih fun l' hl' => hls l' (List.mem_cons_of_mem _ hl')
      have hl := hls l List.mem_cons_self
      rw [encodeBlock_cons, List.append_assoc, List.append_assoc]
      cases l with
      | nil =>
          -- an empty line adds its line end to what is held
          have hnext : decoder.Feeds closed ⟨.crLf, held, []⟩ (crlf ++ (encodeBlock ls ++ raw))
              (blockText (held ++ crlf) ls) raw := feeds_crlf (Or.inr rfl) (hrest (held ++ crlf))
          have htext : blockText (held ++ crlf) ls = blockText held ([] :: ls) := by
            cases ls with
            | nil => simp [blockText, crlf, List.intercalate]
            | cons l' ls => simp [blockText, List.intercalate]
          rw [← htext]
          exact hnext
      | cons x l =>
          -- any other line lets it go, and its own line end is held in its place
          have hnext : decoder.Feeds closed ⟨.data, [], []⟩ (crlf ++ (encodeBlock ls ++ raw))
              (blockText crlf ls) raw := feeds_crlf (Or.inl rfl) (hrest crlf)
          have htext : held ++ (x :: l) ++ blockText crlf ls = blockText held ((x :: l) :: ls) := by
            cases ls with
            | nil => simp [blockText, crlf, List.intercalate]
            | cons l' ls => simp [blockText, List.intercalate]
          rw [← htext]
          exact feeds_first hl hnext

/-- Over any stream that ends there is an end of file. -/
theorem feeds_end (raw : Bytes) :
    ∀ m : MailStreamBuf, ∃ content left, decoder.Feeds true m raw content left := by
  induction raw with
  | nil =>
      rintro ⟨seen, held, ready⟩
      by_cases hs : seen = .all
      · subst hs
        exact ⟨ready ++ [], [], feeds_ready ready feeds_all⟩
      · have hflush : decoder.Feeds true ⟨.all, [], held⟩ [] (held ++ []) [] :=
          feeds_ready held feeds_all
        exact ⟨ready ++ (held ++ []), [], feeds_ready ready
          (.takeEnd (by simp [decoder, hs]; rfl) rfl hflush)⟩
  | cons b raw ih =>
      rintro ⟨seen, held, ready⟩
      by_cases hs : seen = .all
      · subst hs
        exact ⟨ready ++ [], b :: raw, feeds_ready ready feeds_all⟩
      · obtain ⟨content, left, h⟩ := ih (letter ⟨seen, held, []⟩ b)
        exact ⟨ready ++ content, left, feeds_ready ready (feeds_letter hs h)⟩

end MailStreamBuf

/-! ## The instance -/

namespace Reference

variable {π β : Type}

/-- A line written. A peer that has closed does not answer it. -/
def send (server : Server π) (line : Bytes) : Action π Unit := fun s =>
  if s.closed then (.error (.net 1), s)
  else if s.peerClosed then (.ok (), { s with written := s.written ++ line })
  else (.ok (), server.deliver line s)

/-- A line read. Where the peer keeps silent inside it the read times out. -/
def receive (f : Bool → Bytes → β) : Action π β := fun s =>
  if (readLine s.unread).2.1 || s.peerClosed then
    (.ok (f (readLine s.unread).2.1 (readLine s.unread).1),
      { s with unread := (readLine s.unread).2.2 })
  else (.error (.net 2), { s with unread := (readLine s.unread).2.2 })

def getByte : Action π (Option UInt8) := fun s =>
  match s.unread with
  | b :: rest => (.ok (some b), { s with unread := rest })
  | [] => if s.peerClosed then (.ok none, s) else (.error (.net 2), s)

def parseUnsigned (str : Bytes) : Except Exception UInt32 :=
  if Poco.IsDecimal str ∧ Poco.decimal str < 2 ^ 32 then .ok (UInt32.ofNat (Poco.decimal str))
  else .error (.notANumber str)

def parse (str : Bytes) : Except Exception Int :=
  let digits := if str.head? = some 45 then str.tail else str
  let n : Int := Poco.decimal digits
  let value := if str.head? = some 45 then -n else n
  if Poco.IsDecimal digits ∧ -2 ^ 31 ≤ value ∧ value < 2 ^ 31 then .ok value
  else .error (.notANumber str)

/-- A parser that keeps the whole article. -/
def readAll : Consumer UInt8 (Except Exception Bytes) where
  step _ := none
  finish seen := .ok seen

theorem readAll_result (seen content : Bytes) : ∃ a, (readAll.run seen content).result = .ok a := by
  induction content generalizing seen with
  | nil => exact ⟨seen, rfl⟩
  | cons b content ih => exact ih (seen ++ [b])

/-- A parser that finds fault with the article after `n` letters. -/
def failAfter (n : ℕ) : Consumer UInt8 (Except Exception Bytes) where
  step seen := if n ≤ seen.length then some (.error (.malformed n)) else none
  finish seen := .ok seen

end Reference

/-- The reference Poco, against a server, with a parser of articles and one way to show them. -/
def Poco.reference {π α : Type} [Inhabited α] (server : Server π) (read : Consumer UInt8 (Except Exception α))
    (view : α → Bytes) : Poco π MailStreamBuf α where
  sendMessage command := Reference.send server (command ++ crlf)
  sendMessageArg command arg :=
    Reference.send server (command ++ (if arg = [] then [] else 32 :: arg) ++ crlf)
  receiveStatusMessage := Reference.receive fun _ l => (statusOf l, l)
  receiveMessage := Reference.receive fun ended l => (ended, l)
  get := Reference.getByte
  close s := { s with closed := true }
  mailInputStream := MailStreamBuf.decoder
  read := read
  newArticle := default
  getSender := view
  getSubject := view
  formatDate a _ := .ok (view a)
  getContentType := view
  getContent := view
  tokenize str separators :=
    if str = [] then [] else str.splitOnP fun b => separators.contains b
  parseUnsigned := Reference.parseUnsigned
  parse := Reference.parse

namespace Reference

variable {π α : Type} [Inhabited α] {server : Server π} {read : Consumer UInt8 (Except Exception α)}
  {view : α → Bytes}

theorem writes : (Poco.reference server read view).Writes server where
  sendMessage command s hs := by
    show send server _ s = _
    simp [send, hs.1, hs.2]
  sendMessageArg command arg s hs := by
    show send server _ s = _
    simp [send, hs.1, hs.2]

theorem writesVerbatim : (Poco.reference server read view).WritesVerbatim where
  sendMessageArg command arg s := by
    show (∃ e, (send server _ s).1 = .error e ∧ (send server _ s).2.written = s.written) ∨
      ((send server _ s).1 = .ok () ∧ (send server _ s).2.written = s.written ++ _)
    unfold send
    by_cases hclosed : s.closed = true
    · exact Or.inl ⟨.net 1, by simp [hclosed], by simp [hclosed]⟩
    · right
      by_cases hpeer : s.peerClosed = true
      · simp [hclosed, hpeer]
      · simp [hclosed, hpeer, Server.deliver]
  receiveStatusMessage s := by
    show (receive (fun _ l => (statusOf l, l)) s).2.written = s.written
    unfold receive
    split <;> rfl
  receiveMessage s := by
    show (receive (fun ended l => (ended, l)) s).2.written = s.written
    unfold receive
    split <;> rfl
  get s := by
    show (getByte s).2.written = s.written
    unfold getByte
    cases s.unread with
    | nil => by_cases hpeer : s.peerClosed = true <;> simp [hpeer]
    | cons b rest => rfl

theorem writesLines : (Poco.reference server read view).WritesLines where
  toWritesVerbatim := writesVerbatim
  sendMessage command s := by
    show (∃ e, (send server _ s).1 = .error e ∧ (send server _ s).2.written = s.written) ∨
      ((send server _ s).1 = .ok () ∧ (send server _ s).2.written = s.written ++ _)
    unfold send
    by_cases hclosed : s.closed = true
    · exact Or.inl ⟨.net 1, by simp [hclosed], by simp [hclosed]⟩
    · right
      by_cases hpeer : s.peerClosed = true
      · simp [hclosed, hpeer]
      · simp [hclosed, hpeer, Server.deliver]
  close _ := rfl

theorem reads : (Poco.reference server read view).Reads where
  receiveStatusMessage s l rest hl hs := by
    refine ⟨l, ?_, fun _ => rfl⟩
    show receive (fun _ l => (statusOf l, l)) s = _
    simp [receive, hs, readLine_crlf hl.breakFree]
  receiveMessage s l rest hl hs := by
    show receive (fun ended l => (ended, l)) s = _
    simp [receive, hs, readLine_crlf hl]
  get s b rest hs := by
    show getByte s = _
    simp [getByte, hs]

theorem readsCut : (Poco.reference server read view).ReadsCut where
  receiveStatusMessage s l hl hclosed hs := by
    show receive (fun _ l => (statusOf l, l)) s = _
    simp [receive, hs, hclosed, readLine_breakFree hl.breakFree]
  receiveStatusMessageCr s l hl hclosed hs := by
    refine ⟨l, ?_, fun _ => rfl⟩
    show receive (fun _ l => (statusOf l, l)) s = _
    simp [receive, hs, hclosed, readLine_cr hl.breakFree]
  get s hclosed hs := by
    show getByte s = _
    simp [getByte, hs, hclosed]

theorem splits : (Poco.reference server read view).Splits readLine where
  receiveMessage s hclosed := by
    show receive (fun ended l => (ended, l)) s = _
    simp [receive, hclosed]
  takes _ hraw := readLine_shorter hraw
  atEnd := rfl

theorem receivesLines : (Poco.reference server read view).ReceivesLines := by
  intro s x hx
  replace hx : (receive (fun ended l => (ended, l)) s).1 = .ok x := hx
  unfold receive at hx
  split at hx
  · rw [← Except.ok.inj hx]
    exact breakFree_readLine s.unread
  · exact absurd hx (by simp)

theorem closes : (Poco.reference server read view).Closes where
  close _ := rfl
  receiveStatusMessage s hs := by
    show (receive (fun _ l => (statusOf l, l)) s).2.closed = true
    unfold receive
    split <;> exact hs
  sendMessage _ _ hs := ⟨.net 1, if_pos hs⟩

theorem closedForGood : (Poco.reference server read view).ClosedForGood where
  close _ := rfl
  sendMessage _ _ hs := ⟨.net 1, if_pos hs⟩
  sendMessageArg _ _ _ hs := ⟨.net 1, if_pos hs⟩
  receiveStatusMessage := closes.receiveStatusMessage

theorem readsBlocks : (Poco.reference server read view).ReadsBlocks :=
  fun _ ls _ hls => ⟨MailStreamBuf.blockText [] ls, MailStreamBuf.feeds_block hls⟩

theorem unstuffs : (Poco.reference server read view).Unstuffs := by
  intro _ ls _ hls content _ h
  have hcontent := (h.unique (MailStreamBuf.feeds_block hls)).1
  subst hcontent
  left
  cases ls with
  | nil => rfl
  | cons l ls => rfl

theorem endsWithStream : (Poco.reference server read view).EndsWithStream :=
  fun raw => MailStreamBuf.feeds_end raw _

theorem tokenizes : (Poco.reference server read view).Tokenizes := by
  intro str sep
  show (if str = [] then [] else str.splitOnP fun b => [sep].contains b) = _
  have hsep : (fun b => [sep].contains b) = (· == sep) := by
    funext b
    by_cases hb : b = sep <;> simp [hb]
  rw [hsep]
  rfl

theorem parsesUnsigned : (Poco.reference server read view).ParsesUnsigned where
  small _ hstr hlt := if_pos ⟨hstr, hlt⟩
  empty := ⟨.notANumber [], rfl⟩

theorem parsesDecimal : (Poco.reference server read view).ParsesDecimal := by
  intro str hstr hlt
  -- a digit is no sign
  have hsign : str.head? ≠ some 45 := by
    intro hhead
    have hdigit := List.all_eq_true.mp hstr.2 45 (List.mem_of_head? hhead)
    exact absurd hdigit (by decide)
  show parse str = _
  simp only [parse, if_neg hsign]
  exact if_pos ⟨hstr, by omega, by omega⟩

end Reference

end NntpPoco
