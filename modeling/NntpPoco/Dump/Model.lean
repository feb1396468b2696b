import NntpPoco.Session.Model

/-!
# `Dump.Model` — the `nntp-dump` program

`src/nntp/nntp-dump/main.cpp`, function by function, as programs over its session and what it has printed
on `std::cout` and `std::cerr`. What the `print` functions write is a function of their argument, so each
of them is one here as well.
-/

namespace NntpPoco

open NNTPClientSession

structure NntpDump (π : Type) where
  session : NNTPClientSession π
  cout : Bytes
  cerr : Bytes

namespace NntpDump

variable {π μ α β : Type} (poco : Poco π μ α)

/-- Before `main` has done anything, on a connection. -/
def ofSocket (socket : DialogSocket π) : NntpDump π := ⟨.ofSocket socket, [], []⟩

abbrev Method (π β : Type) := Prog Exception (NntpDump π) β

/-- A member function of `session`. -/
def inSession (p : NNTPClientSession.Method π β) : Method π β :=
  Prog.zoom NntpDump.session (fun s d => { d with session := s }) p

/-- `std::cout << s`. -/
def write (s : Bytes) : Method π Unit := Prog.modify fun d => { d with cout := d.cout ++ s }

/-! ## The `print` functions -/

/-- `print(const std::vector<std::string>&)`. -/
def printLines (lines : List Bytes) : Bytes := lines.flatMap fun line => line ++ text "\n"

/-- `print(const NewsArticle&)`. -/
def printArticle (article : α) : Bytes :=
  text "From:    " ++ poco.getSender article ++ text "\n" ++
  text "Subject: " ++ poco.getSubject article ++ text "\n" ++
  text "Type:    " ++ poco.getContentType article ++ text "\n" ++
  text "\n" ++
  poco.getContent article ++ text "\n"

/-- `print(const GroupDesc&)`. -/
def printGroupDesc (desc : GroupDesc) : Bytes := desc.1 ++ text " " ++ desc.2 ++ text "\n"

/-- `print(const std::vector<GroupDesc>&)`. -/
def printGroupDescs (descs : List GroupDesc) : Bytes := descs.flatMap printGroupDesc

/-- `separator()`. -/
def separator : Bytes := List.replicate 70 61 ++ text "\n\n"

/-! ## `main` -/

/-- The `try` block, once the session is connected. -/
def dump : Method π Unit := do
  inSession (openSession poco)
  let capabilities ← inSession (capabilities poco)
  write (printLines capabilities)
  write separator
  let newsGroups ← inSession (listNewsGroups poco (text "gmane.comp.*.boost.*"))
  write (printGroupDescs newsGroups)
  write separator
  let _ ← inSession (selectNewsGroup poco (text "gmane.comp.lib.boost.user"))
  write separator
  let header ← inSession (articleHeader poco)
  write (printLines header)
  write separator
  let raw ← inSession (articleRaw poco)
  write (printLines raw)
  write separator
  let article ← inSession (article poco)
  write (printArticle poco article)
  write separator

/-- What the handlers print; `what` is what `what()` says of an exception. -/
def complaint (what : Exception → Bytes) (bang : Exception) : Bytes :=
  match bang with
  | .outOfRange => text "Exception: " ++ what bang ++ text "\n"
  | _ => text "Poco Exception: " ++ what bang ++ text "\n"

/-- `main`: the exit code. The session is destroyed before the exception is handled. -/
def main (what : Exception → Bytes) : Method π ℕ := do
  let result ← Prog.attempt (dump poco)
  match result with
  -- no exception, so nothing catches it
  | .error .undefined => Prog.throw .undefined
  | .error bang =>
    inSession (destroy poco)
    Prog.modify fun d => { d with cerr := d.cerr ++ complaint what bang }
    pure 1
  | .ok _ =>
    inSession (destroy poco)
    pure 0

end NntpDump

end NntpPoco
