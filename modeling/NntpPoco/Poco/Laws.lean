import NntpPoco.Poco.Interface

/-!
# `Poco.Laws` — what is assumed of Poco

Each structure is one documented behaviour of the Poco functions, stated on the socket's bytes; a
theorem takes the ones its proof needs and no more. `Poco.Reference` has functions that satisfy all
of them.
-/

namespace NntpPoco

open Lines

/-! ## Status lines -/

def isDigit (b : UInt8) : Bool := 48 ≤ b && b ≤ 57

def digitVal (b : UInt8) : Int := (b.toNat : Int) - 48

/-- The number in the first three bytes of a line; 0 unless they are digits. -/
def statusOf : Bytes → Int
  | a :: b :: c :: _ =>
    if isDigit a && isDigit b && isDigit c then
      100 * digitVal a + 10 * digitVal b + digitVal c
    else 0
  | _ => 0

/-- A `ddd-` line: the status message goes on in the next line. -/
def isContinued : Bytes → Bool
  | a :: b :: c :: d :: _ => isDigit a && isDigit b && isDigit c && d == 45
  | _ => false

/-- A complete status message of one line. -/
structure StatusLine (l : Bytes) : Prop where
  breakFree : BreakFree l
  single : isContinued l = false

/-! ## The other end of the connection -/

/-- The peer: what it does when a command line reaches it, namely the bytes it sends back and whether
    it then closes the connection. -/
structure Server (π : Type) where
  react : π → Bytes → π × Bytes × Bool

/-- A command line written on an open connection, and the peer's reaction to it. -/
def Server.deliver {π : Type} (server : Server π) (line : Bytes) (s : DialogSocket π) :
    DialogSocket π where
  unread := s.unread ++ (server.react s.peer line).2.1
  peerClosed := (server.react s.peer line).2.2
  written := s.written ++ line
  closed := s.closed
  peer := (server.react s.peer line).1

/-- Both sides of the connection are open. -/
def DialogSocket.Connected {π : Type} (s : DialogSocket π) : Prop :=
  s.closed = false ∧ s.peerClosed = false

namespace Poco

variable {π μ α : Type} (poco : Poco π μ α)

/-! ## `DialogSocket` -/

/-- `sendMessage` writes one line, verbatim, and the peer gets it. -/
structure Writes (server : Server π) : Prop where
  sendMessage : ∀ (command : Bytes) (s : DialogSocket π), s.Connected →
    poco.sendMessage command s = (.ok (), server.deliver (command ++ crlf) s)
  sendMessageArg : ∀ (command arg : Bytes) (s : DialogSocket π), s.Connected →
    poco.sendMessageArg command arg s =
      (.ok (), server.deliver (command ++ (if arg = [] then [] else 32 :: arg) ++ crlf) s)

/-- Whatever the state of the connection and whatever the argument: `sendMessage` throws with nothing
    written, or writes the command, a space and the argument where there is one, and CRLF. The readers
    write nothing. -/
structure WritesVerbatim : Prop where
  sendMessageArg : ∀ (command arg : Bytes) (s : DialogSocket π),
    (∃ e, (poco.sendMessageArg command arg s).1 = .error e ∧
      (poco.sendMessageArg command arg s).2.written = s.written) ∨
    ((poco.sendMessageArg command arg s).1 = .ok () ∧
      (poco.sendMessageArg command arg s).2.written =
        s.written ++ (command ++ (if arg = [] then [] else 32 :: arg) ++ crlf))
  receiveStatusMessage : ∀ s : DialogSocket π, (poco.receiveStatusMessage s).2.written = s.written
  receiveMessage : ∀ s : DialogSocket π, (poco.receiveMessage s).2.written = s.written
  get : ∀ s : DialogSocket π, (poco.get s).2.written = s.written

/-- The same of `sendMessage` without an argument; closing writes nothing either. -/
structure WritesLines : Prop extends poco.WritesVerbatim where
  sendMessage : ∀ (command : Bytes) (s : DialogSocket π),
    (∃ e, (poco.sendMessage command s).1 = .error e ∧
      (poco.sendMessage command s).2.written = s.written) ∨
    ((poco.sendMessage command s).1 = .ok () ∧
      (poco.sendMessage command s).2.written = s.written ++ (command ++ crlf))
  close : ∀ s : DialogSocket π, (poco.close s).written = s.written

/-- On a complete line the readers take that line and nothing else. -/
structure Reads : Prop where
  receiveStatusMessage : ∀ (s : DialogSocket π) (l rest : Bytes), StatusLine l →
    s.unread = l ++ (crlf ++ rest) →
    ∃ response, poco.receiveStatusMessage s = (.ok (statusOf l, response), { s with unread := rest }) ∧
      (4 ≤ l.length → response = l)
  receiveMessage : ∀ (s : DialogSocket π) (l rest : Bytes), BreakFree l →
    s.unread = l ++ (crlf ++ rest) →
    poco.receiveMessage s = (.ok (true, l), { s with unread := rest })
  get : ∀ (s : DialogSocket π) (b : UInt8) (rest : Bytes), s.unread = b :: rest →
    poco.get s = (.ok (some b), { s with unread := rest })

/-- Where the peer has closed inside a line, the readers take what there is of it and throw nothing. -/
structure ReadsCut : Prop where
  receiveStatusMessage : ∀ (s : DialogSocket π) (l : Bytes), StatusLine l → s.peerClosed = true →
    s.unread = l →
    poco.receiveStatusMessage s = (.ok (statusOf l, l), { s with unread := [] })
  receiveStatusMessageCr : ∀ (s : DialogSocket π) (l : Bytes), StatusLine l → s.peerClosed = true →
    s.unread = l ++ [LineSyntax.cr] →
    ∃ response, poco.receiveStatusMessage s = (.ok (statusOf l, response), { s with unread := [] }) ∧
      (4 ≤ l.length → response = l)
  get : ∀ (s : DialogSocket π), s.peerClosed = true → s.unread = [] → poco.get s = (.ok none, s)

/-- Once the peer has closed, `receiveMessage` splits what it delivered, whatever it is, with `split`:
    the line, whether a line end closed it, and the rest. Every call takes something, and at the end
    of the stream there is nothing to take and it returns false with the empty string. -/
structure Splits (split : Bytes → Bytes × Bool × Bytes) : Prop where
  receiveMessage : ∀ (s : DialogSocket π), s.peerClosed = true →
    poco.receiveMessage s =
      (.ok ((split s.unread).2.1, (split s.unread).1), { s with unread := (split s.unread).2.2 })
  takes : ∀ raw : Bytes, raw ≠ [] → (split raw).2.2.length < raw.length
  atEnd : split [] = ([], false, [])

/-- A line that `receiveMessage` returns has no line end in it, whatever the peer has sent. -/
def ReceivesLines : Prop :=
  ∀ (s : DialogSocket π) (x : Bool × Bytes), (poco.receiveMessage s).1 = .ok x → BreakFree x.2

/-- A socket that was closed stays closed, and writes nothing any more. -/
structure Closes : Prop where
  close : ∀ s : DialogSocket π, (poco.close s).closed = true
  receiveStatusMessage : ∀ s : DialogSocket π, s.closed = true →
    (poco.receiveStatusMessage s).2.closed = true
  sendMessage : ∀ (command : Bytes) (s : DialogSocket π), s.closed = true →
    ∃ e, poco.sendMessage command s = (.error e, s)

/-- No line goes out on a socket that was closed, and nothing opens it again. -/
structure ClosedForGood : Prop where
  close : ∀ s : DialogSocket π, (poco.close s).closed = true
  sendMessage : ∀ (command : Bytes) (s : DialogSocket π), s.closed = true →
    ∃ e, poco.sendMessage command s = (.error e, s)
  sendMessageArg : ∀ (command arg : Bytes) (s : DialogSocket π), s.closed = true →
    ∃ e, poco.sendMessageArg command arg s = (.error e, s)
  receiveStatusMessage : ∀ s : DialogSocket π, s.closed = true →
    (poco.receiveStatusMessage s).2.closed = true

/-! ## `MailInputStream` -/

/-- Over a complete block, a `MailInputStream` ends with the block's last line and leaves what follows
    it alone. -/
def ReadsBlocks : Prop :=
  ∀ (closed : Bool) (ls : List Bytes) (rest : Bytes), (∀ l ∈ ls, BreakFree l) →
    ∃ content, poco.mailInputStream.Feeds closed poco.mailInputStream.init
      (encodeBlock ls ++ rest) content rest

/-- `content` is the text of the lines `ls`: CRLF between them, and possibly after the last. -/
def TextOf (ls : List Bytes) (content : Bytes) : Prop :=
  content = List.intercalate crlf ls ∨ content = encodeLines ls

/-- A `MailInputStream` removes the stuffed dots: over a block it gives the lines that were encoded. -/
def Unstuffs : Prop :=
  ∀ (closed : Bool) (ls : List Bytes) (rest : Bytes), (∀ l ∈ ls, BreakFree l) →
    ∀ content raw, poco.mailInputStream.Feeds closed poco.mailInputStream.init
      (encodeBlock ls ++ rest) content raw → TextOf ls content

/-- A `MailInputStream` over a stream that ends gives an end of file in its turn. -/
def EndsWithStream : Prop :=
  ∀ raw : Bytes, ∃ content left,
    poco.mailInputStream.Feeds true poco.mailInputStream.init raw content left

/-! ## Strings and numbers -/

/-- `StringTokenizer` without options splits at every separator and keeps the empty tokens; an empty
    string has no token. -/
def Tokenizes : Prop :=
  ∀ (str : Bytes) (sep : UInt8),
    poco.tokenize str [sep] = if str = [] then [] else str.splitOn sep

/-- A non-empty string of digits. -/
def IsDecimal (str : Bytes) : Prop := str ≠ [] ∧ str.all isDigit = true

instance (str : Bytes) : Decidable (IsDecimal str) := inferInstanceAs (Decidable (_ ∧ _))

/-- The number a string of digits stands for. -/
def decimal (str : Bytes) : ℕ := str.foldl (fun n b => 10 * n + (b.toNat - 48)) 0

/-- `parseUnsigned` reads decimal numbers below 2^32 and throws on the empty string. -/
structure ParsesUnsigned : Prop where
  small : ∀ str : Bytes, IsDecimal str → decimal str < 2 ^ 32 →
    poco.parseUnsigned str = .ok (UInt32.ofNat (decimal str))
  empty : ∃ e, poco.parseUnsigned [] = .error e

/-- `parse` reads decimal numbers below 2^31. -/
def ParsesDecimal : Prop :=
  ∀ str : Bytes, IsDecimal str → decimal str < 2 ^ 31 → poco.parse str = .ok (decimal str)

end Poco

end NntpPoco
