import NntpPoco.Cxx.Bytes
import NntpPoco.Lib.Prog
import NntpPoco.Lib.Pull

/-!
# `Poco.Interface` — what the code uses of Poco

Poco is not part of this repository, so all of it is a parameter: a record `Poco π μ α` of the
functions the code calls, over the peer's state `π`, the state `μ` of a `MailInputStream` and the type
`α` of a `NewsArticle`. `Poco.Laws` states what is assumed of them; nothing here does.
-/

namespace NntpPoco

open Lines

/-- A `DialogSocket` as its user sees it: the bytes the peer has delivered and nobody has taken yet,
    whether the peer has closed behind them, what has been written, whether `close` was called, and
    the peer itself. -/
structure DialogSocket (π : Type) where
  unread : Bytes
  peerClosed : Bool
  written : Bytes
  closed : Bool
  peer : π
  deriving DecidableEq, Repr

/-- A call on a socket. -/
abbrev Action (π β : Type) := DialogSocket π → Except Exception β × DialogSocket π

/-- The Poco functions the code calls. -/
structure Poco (π μ α : Type) where
  /-- `DialogSocket::sendMessage(message)` -/
  sendMessage : Bytes → Action π Unit
  /-- `DialogSocket::sendMessage(message, arg)` -/
  sendMessageArg : Bytes → Bytes → Action π Unit
  /-- `DialogSocket::receiveStatusMessage(message)`: the status and the message -/
  receiveStatusMessage : Action π (Int × Bytes)
  /-- `DialogSocket::receiveMessage(message)`: what it returns and the message -/
  receiveMessage : Action π (Bool × Bytes)
  /-- `DialogSocket::get`, `none` for `EOF_CHAR` -/
  get : Action π (Option UInt8)
  /-- `StreamSocket::close` -/
  close : DialogSocket π → DialogSocket π
  /-- `MailInputStream`, over the bytes of the stream below it -/
  mailInputStream : Pull.Decoder UInt8 μ
  /-- `MailMessage::read`, on the bytes of the stream it is given -/
  read : Pull.Consumer UInt8 (Except Exception α)
  /-- `NewsArticle()` -/
  newArticle : α
  getSender : α → Bytes
  getSubject : α → Bytes
  /-- `DateTimeFormatter::format(article.getDate(), fmt)`: there may be no date to parse -/
  formatDate : α → String → Except Exception Bytes
  getContentType : α → Bytes
  getContent : α → Bytes
  /-- `StringTokenizer(str, separators)` -/
  tokenize : Bytes → Bytes → List Bytes
  /-- `NumberParser::parseUnsigned` -/
  parseUnsigned : Bytes → Except Exception UInt32
  /-- `NumberParser::parse` -/
  parse : Bytes → Except Exception Int

/-- `StringTokenizer::operator[]`. -/
def token (tokens : List Bytes) (index : ℕ) : Except Exception Bytes :=
  match tokens[index]? with
  | some t => .ok t
  | none => .error .range

end NntpPoco
