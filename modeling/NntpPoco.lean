import NntpPoco.Session.Pairing
import NntpPoco.Session.Decoding
import NntpPoco.Session.Cut
import NntpPoco.Session.Lifecycle
import NntpPoco.Session.Listing
import NntpPoco.Session.Dialogue
import NntpPoco.Session.Usage
import NntpPoco.Session.Lag
import NntpPoco.Reader.Fetch
import NntpPoco.Reader.Menus
import NntpPoco.Reader.Paging
import NntpPoco.Reader.Wire
import NntpPoco.Reader.Total
import NntpPoco.Dump.Run
import NntpPoco.Reader.Browse
import NntpPoco.Reader.Choice
import NntpPoco.Reader.Clean
import NntpPoco.Reader.Interpreter
