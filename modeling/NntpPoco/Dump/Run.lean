import NntpPoco.Dump.Model
import NntpPoco.Session.Dialogue
import NntpPoco.Session.Usage

/-!
# `Dump.Run` — what `nntp-dump` prints

The `try` block of `main` goes through a script of six commands (`dump_eq`): each prints its result and a
separator, and the first that throws ends it. `dumpAll_cases` is what that comes to whatever Poco and the
server do, by induction on the script, and `main_dumped` what the whole program has then printed and
sent. On a server that answers every command, the text printed is a function of the dialogue
(`main_prints_dialogue`).
-/

namespace NntpPoco

open Lines Prog NNTPClientSession

namespace NntpDump

variable {π μ α β γ : Type} {poco : Poco π μ α} {server : Server π}

/-! ## The script -/

def script : List Operation :=
  [.capabilities, .listNewsGroups (text "gmane.comp.*.boost.*"),
    .selectNewsGroup (text "gmane.comp.lib.boost.user"), .articleHeader, .articleRaw, .article]

/-- What is printed of a result. -/
def printResult (poco : Poco π μ α) : Result α → Bytes
  | .lines ls => printLines ls
  | .groups descs => printGroupDescs descs
  | .article a => printArticle poco a
  | .active _ => []
  | .verdict _ => []

/-- One section of the output. -/
def printSection (poco : Poco π μ α) (call : Operation × Result α) : Bytes :=
  printResult poco call.2 ++ separator

/-- The commands one after the other, each with its section. -/
def dumpAll (poco : Poco π μ α) : List Operation → Method π Unit
  | [] => pure ()
  | op :: ops => do
    let x ← inSession (op.run poco)
    write (printResult poco x)
    write separator
    dumpAll poco ops

theorem inSession_map_bind (p : NNTPClientSession.Method π β) (f : β → γ) (g : γ → Method π Unit) :
    inSession (f <$> p) >>= g = inSession p >>= fun b => g (f b) := by
  apply Prog.ext
  intro n d
  show (((p.run n d.session).bind (andThen (fun b => pure (f b)) n)).map _).bind (andThen g n) =
    ((p.run n d.session).map _).bind (andThen (fun b => g (f b)) n)
  cases p.run n d.session with
  | none => rfl
  | some x =>
      obtain ⟨r, s⟩ := x
      cases r <;> rfl

theorem write_nil_bind (g : Unit → Method π Unit) : write [] >>= g = g () := by
  apply Prog.ext
  intro n d
  show (g ()).run n { d with cout := d.cout ++ [] } = (g ()).run n d
  rw [List.append_nil]

theorem bind_return (p : Method π Unit) : (p >>= fun _ => pure ()) = p := by
  apply Prog.ext
  intro n d
  show (p.run n d).bind (andThen (fun _ => pure ()) n) = p.run n d
  cases p.run n d with
  | none => rfl
  | some x =>
      obtain ⟨r, s⟩ := x
      cases r <;> rfl

/-- **The `try` block is the script**, behind `open()`. -/
theorem dump_eq : dump poco = inSession (openSession poco) >>= fun _ => dumpAll poco script := by
  simp only [script, dumpAll, Operation.run, inSession_map_bind, printResult, write_nil_bind,
    bind_return]
  rfl

/-! ## How far a script comes -/

/-- A command that returns. -/
def Returns (poco : Poco π μ α) (s : NNTPClientSession π) (call : Operation × Result α)
    (t : NNTPClientSession π) : Prop :=
  (call.1.run poco).Evals s (.ok call.2) t

/-- The commands of `ops` that have returned are `calls`: all of them, or those in front of the first
    one that has thrown. -/
inductive Comes (poco : Poco π μ α) (ops : List Operation) (s : NNTPClientSession π)
    (calls : List (Operation × Result α)) : Except Exception Unit → NNTPClientSession π → Prop
  | through {t} (hcalls : Lts.Runs (Returns poco) s calls t) (hops : calls.map Prod.fst = ops) :
      Comes poco ops s calls (.ok ()) t
  | stopped {s' op rest e t} (hcalls : Lts.Runs (Returns poco) s calls s')
      (hops : ops = calls.map Prod.fst ++ op :: rest) (hthrows : (op.run poco).Evals s' (.error e) t) :
      Comes poco ops s calls (.error e) t

/-- One command more in front. -/
theorem Comes.cons {ops : List Operation} {s s' t : NNTPClientSession π}
    {call : Operation × Result α} {calls : List (Operation × Result α)} {x : Except Exception Unit}
    (h : Comes poco ops s' calls x t) (hcall : Returns poco s call s') :
    Comes poco (call.1 :: ops) s (call :: calls) x t := by
  cases h with
  | through hcalls hops => exact .through (.cons hcall hcalls) (congrArg (call.1 :: ·) hops)
  | stopped hcalls hops hthrows =>
      exact .stopped (.cons hcall hcalls) (congrArg (call.1 :: ·) hops) hthrows

section DumpAll

variable {d t : NntpDump π} {op : Operation} {ops : List Operation} {x : Except Exception Unit}

/-- The first command of a script. -/
theorem dumpAll_cons :
    (dumpAll poco (op :: ops)).Evals d x t ↔
      (∃ e s, (op.run poco).Evals d.session (.error e) s ∧ x = .error e ∧
        t = { d with session := s }) ∨
      ∃ r s, (op.run poco).Evals d.session (.ok r) s ∧ (dumpAll poco ops).Evals
        { d with session := s, cout := d.cout ++ printSection poco (op, r) } x t := by
  have hprint : ∀ (r : Result α) (s : NNTPClientSession π),
      (write (printResult poco r) >>= fun _ => write separator >>= fun _ => dumpAll poco ops).Evals
        { d with session := s } x t ↔ (dumpAll poco ops).Evals
        { d with session := s, cout := d.cout ++ printSection poco (op, r) } x t := by
    intro r s
    unfold write
    rw [evals_modify_bind, evals_modify_bind, printSection, ← List.append_assoc]
  constructor
  · intro h
    rcases evals_bind.mp h with ⟨e, he, hx⟩ | ⟨r, d', hr, hrest⟩
    · obtain ⟨s, hs, hd⟩ := evals_zoom.mp he
      exact Or.inl ⟨e, s, hs, hx, hd⟩
    · obtain ⟨s, hs, rfl⟩ := evals_zoom.mp hr
      exact Or.inr ⟨r, s, hs, (hprint r s).mp hrest⟩
  · rintro (⟨e, s, hs, rfl, rfl⟩ | ⟨r, s, hs, hrest⟩)
    · have hthrows : (inSession (op.run poco)).Evals d (.error e) { d with session := s } :=
        Evals.zoom hs
      exact hthrows.bind_error
    · have hreturns : (inSession (op.run poco)).Evals d (.ok r) { d with session := s } :=
        Evals.zoom hs
      exact hreturns.bind ((hprint r s).mpr hrest)

/-- **What a script prints**: the sections of the commands that have returned. -/
theorem dumpAll_cases (h : (dumpAll poco ops).Evals d x t) :
    ∃ calls, Comes poco ops d.session calls x t.session ∧
      t.cout = d.cout ++ calls.flatMap (printSection poco) ∧ t.cerr = d.cerr := by
  induction ops generalizing d with
  | nil =>
      obtain ⟨rfl, rfl⟩ := evals_pure.mp h
      exact ⟨[], .through .nil rfl, (List.append_nil _).symm, rfl⟩
  | cons op ops ih =>
      rcases dumpAll_cons.mp h with ⟨e, s, hs, rfl, rfl⟩ | ⟨r, s, hs, hrest⟩
      · exact ⟨[], .stopped .nil rfl hs, (List.append_nil _).symm, rfl⟩
      · obtain ⟨calls, hcomes, hcout, hcerr⟩ := ih hrest
        have hcall : Returns poco d.session (op, r) s := hs
        refine ⟨(op, r) :: calls, hcomes.cons hcall, ?_, hcerr⟩
        rw [hcout, List.flatMap_cons, List.append_assoc]

end DumpAll

/-- The exchange of a command that has returned. -/
def Accepted (call : Operation × Result α) (e : Exchange) : Prop :=
  e.line = call.1.line ∧
    ∃ code response, e.answer = .status code response ∧ call.1.accepts code = true

theorem returns_accepted {s t : NNTPClientSession π} {calls : List (Operation × Result α)}
    (h : Lts.Runs (Returns poco) s calls t) (hstat : ∀ call ∈ calls, ∀ n, call.1 ≠ .stat n) :
    t.m_isOpen = s.m_isOpen ∧ ∃ es, t.history = s.history ++ es.flatMap Exchange.events ∧
      List.Forall₂ Accepted calls es := by
  induction h with
  | nil => exact ⟨rfl, [], (List.append_nil _).symm, .nil⟩
  | @cons s s' t call calls hcall hrest ih =>
      obtain ⟨hop, hcalls⟩ := List.forall_mem_cons.mp hstat
      obtain ⟨hopen, es, hhistory, haccepted⟩ := ih hcalls
      obtain ⟨code, response, _, hhandle, hhistory'⟩ := run_returns hcall
      refine ⟨hopen.trans (run_isOpen hcall), ⟨call.1.line, .status code response⟩ :: es, ?_,
        .cons ⟨rfl, code, response, rfl, accepted_of_handle hop hhandle⟩ haccepted⟩
      rw [hhistory, hhistory', List.flatMap_cons, List.append_assoc]
      rfl

/-! ## `main` -/

/-- What `main` makes of its `try` block, which has ended with `y`. -/
inductive Exits (what : Exception → Bytes) (cerr cerr' : Bytes) :
    Except Exception Unit → Except Exception ℕ → Prop
  | returned (hcerr : cerr' = cerr) : Exits what cerr cerr' (.ok ()) (.ok 0)
  | caught {bang} (hcerr : cerr' = cerr ++ complaint what bang) :
      Exits what cerr cerr' (.error bang) (.ok 1)
  | undefined : Exits what cerr cerr' (.error .undefined) (.error .undefined)

/-- Behind its `try` block `main` destroys the session. -/
theorem main_cases {what : Exception → Bytes} {d t : NntpDump π} {x : Except Exception ℕ}
    (h : (main poco what).Evals d x t) :
    ∃ y d', (dump poco).Evals d y d' ∧ t.cout = d'.cout ∧ Exits what d'.cerr t.cerr y x ∧
      ((x = .error .undefined ∧ t.session = d'.session) ∨
        (x ≠ .error .undefined ∧ (destroy poco).Evals d'.session (.ok ()) t.session)) := by
  unfold main at h
  rcases evals_bind.mp h with ⟨e, he, _⟩ | ⟨y, d', hattempt, hrest⟩
  · obtain ⟨_, _, herr⟩ := evals_attempt.mp he
    exact absurd herr (by simp)
  obtain ⟨_, hdump, hy⟩ := evals_attempt.mp hattempt
  obtain rfl := Except.ok.inj hy
  refine ⟨y, d', hdump, ?_⟩
  obtain ⟨s, hs⟩ := destroy_evals poco d'.session
  have hdestroy : (inSession (destroy poco)).Evals d' (.ok ()) { d' with session := s } :=
    Evals.zoom hs
  cases y with
  | ok u =>
      rw [hdestroy.bind_iff] at hrest
      obtain ⟨rfl, rfl⟩ := evals_pure.mp hrest
      exact ⟨rfl, .returned rfl, Or.inr ⟨by simp, hs⟩⟩
  | error bang =>
      cases bang with
      | undefined =>
          obtain ⟨rfl, rfl⟩ := evals_throw.mp hrest
          exact ⟨rfl, .undefined, Or.inl ⟨rfl, rfl⟩⟩
      | _ =>
          rw [hdestroy.bind_iff, evals_modify_bind] at hrest
          obtain ⟨rfl, rfl⟩ := evals_pure.mp hrest
          exact ⟨rfl, .caught rfl, Or.inr ⟨by simp, hs⟩⟩

section Session

variable {J : NNTPClientSession π → Prop} (hJ : KeptByCalls poco J)
include hJ

theorem dumpAll_kept (ops : List Operation) :
    Keeps (fun d : NntpDump π => J d.session) (dumpAll poco ops) := by
  have hwrite : ∀ s : Bytes, Keeps (fun d : NntpDump π => J d.session) (write s) :=
    fun _ => keeps_modify fun _ hd => hd
  induction ops with
  | nil => exact keeps_pure ()
  | cons op ops ih =>
      have hrun : Keeps (fun d : NntpDump π => J d.session) (inSession (op.run poco)) :=
        Keeps.zoom fun d x s hd heval => hJ.command op d.session x s hd heval
      exact hrun.bind fun _ => (hwrite _).bind fun _ => (hwrite _).bind fun _ => ih

/-- What the calls of a session keep, `main` keeps. -/
theorem main_kept (what : Exception → Bytes) :
    Keeps (fun d : NntpDump π => J d.session) (main poco what) := by
  have hopened : Keeps (fun d : NntpDump π => J d.session) (inSession (openSession poco)) :=
    Keeps.zoom fun d x s hd heval => hJ.openSession d.session x s hd heval
  have hdestroyed : Keeps (fun d : NntpDump π => J d.session) (inSession (destroy poco)) :=
    Keeps.zoom fun d x s hd heval => hJ.destroy d.session x s hd heval
  have hdump : Keeps (fun d : NntpDump π => J d.session) (dump poco) := by
    rw [dump_eq]
    exact hopened.bind fun _ => dumpAll_kept hJ script
  have hcomplain : ∀ bang : Exception, Keeps (fun d : NntpDump π => J d.session)
      (Prog.modify fun d => { d with cerr := d.cerr ++ complaint what bang } : Method π Unit) :=
    fun _ => keeps_modify fun _ hd => hd
  unfold main
  refine hdump.attempt.bind fun result => ?_
  cases result with
  | ok u => exact hdestroyed.bind fun _ => keeps_pure 0
  | error bang =>
      cases bang with
      | undefined => exact keeps_throw _
      | _ => exact hdestroyed.bind fun _ => (hcomplain _).bind fun _ => keeps_pure 1

end Session

/-- What a session has sent that has been greeted: `calls` have returned, `tried` has not, and `quits` is
    the end of it. -/
def Sent (history : List Event) (calls : List (Operation × Result α)) (tried : List Operation)
    (quits : List Bytes) : Prop :=
  ∃ code greeting es es', isPositiveCompletion code = true ∧
    history = .status code greeting :: (es ++ es').flatMap Exchange.events ∧
    List.Forall₂ Accepted calls es ∧ es'.map Exchange.line = tried.map Operation.line ++ quits

/-- What the `try` block comes to: `open()` throws, or the script comes as far as it does. -/
inductive Tried (poco : Poco π μ α) (socket : DialogSocket π) :
    List (Operation × Result α) → Except Exception Unit → Prop
  | notOpened {e s} (hopen : (openSession poco).Evals (.ofSocket socket) (.error e) s) :
      Tried poco socket [] (.error e)
  | opened {calls y s s'} (hopen : (openSession poco).Evals (.ofSocket socket) (.ok ()) s)
      (hcomes : Comes poco script s calls y s') : Tried poco socket calls y

/-- What `main` has done when it has ended with `x`; `calls` are the commands that have returned, with their
    results. -/
structure Dumped (poco : Poco π μ α) (what : Exception → Bytes) (socket : DialogSocket π)
    (calls : List (Operation × Result α)) (t : NntpDump π) (x : Except Exception ℕ) : Prop where
  tried : ∃ y, Tried poco socket calls y ∧ Exits what [] t.cerr y x
  called : calls.map Prod.fst <+: script
  printed : t.cout = calls.flatMap (printSection poco)
  exitCode : (x = .ok 0 ∧ calls.map Prod.fst = script ∧ t.cerr = []) ∨
    ((∃ bang, x = .ok 1 ∧ t.cerr = complaint what bang) ∨ x = .error .undefined) ∧
      calls.map Prod.fst ≠ script
  sent : (calls = [] ∧ ∃ r, t.session.history = statusEvent r ∧
      ∀ code response, r = .ok (code, response) → isPositiveCompletion code = false) ∨
    Sent t.session.history calls ((script.drop calls.length).take 1)
      (if x = .error .undefined then [] else [quitLine])

/-- What the script has sent when it has come to its end or has stopped. -/
theorem Comes.sent {s t : NNTPClientSession π} {calls : List (Operation × Result α)}
    {x : Except Exception Unit} (h : Comes poco script s calls x t) (hopen : s.m_isOpen = true)
    {code : Int} {greeting : Bytes} (hcode : isPositiveCompletion code = true)
    (hhistory : s.history = [.status code greeting]) :
    t.m_isOpen = true ∧ Sent t.history calls ((script.drop calls.length).take 1) [] := by
  have hstat : ∀ {ops : List Operation}, ops <+: script → ∀ op ∈ ops, ∀ n, op ≠ .stat n := by
    intro ops hops op hop n
    rintro rfl
    exact absurd (hops.subset hop) (by simp [script])
  cases h with
  | through hcalls hops =>
      have hcalled : ∀ call ∈ calls, ∀ n, call.1 ≠ .stat n := fun call hcall =>
        hstat (hops ▸ List.prefix_refl _) call.1 (List.mem_map_of_mem hcall)
      obtain ⟨hopen', es, hes, haccepted⟩ := returns_accepted hcalls hcalled
      refine ⟨hopen'.trans hopen, code, greeting, es, [], hcode, ?_, haccepted, ?_⟩
      · rw [hes, hhistory, List.append_nil, List.singleton_append]
      · rw [← hops, ← show (calls.map Prod.fst).length = calls.length from List.length_map _,
          List.drop_length]
        rfl
  | @stopped s' op rest e t hcalls hops hthrows =>
      have hcalled : ∀ call ∈ calls, ∀ n, call.1 ≠ .stat n := fun call hcall =>
        hstat (hops ▸ List.prefix_append _ _) call.1 (List.mem_map_of_mem hcall)
      obtain ⟨hopen', es, hes, haccepted⟩ := returns_accepted hcalls hcalled
      obtain ⟨answer, hanswer⟩ : ∃ answer,
          t.history = s'.history ++ Exchange.events ⟨op.line, answer⟩ := by
        rcases run_cases hthrows with ⟨answer, _, _, _, hanswer⟩ | ⟨code, response, _, _, _, hanswer⟩
        · exact ⟨answer, hanswer⟩
        · exact ⟨.status code response, hanswer⟩
      refine ⟨(run_isOpen hthrows).trans (hopen'.trans hopen), code, greeting, es,
        [⟨op.line, answer⟩], hcode, ?_, haccepted, ?_⟩
      · rw [hanswer, hes, hhistory, List.flatMap_append, List.flatMap_singleton, List.append_assoc,
          List.singleton_append]
      · rw [hops, List.drop_left' (show (calls.map Prod.fst).length = calls.length from
          List.length_map _)]
        rfl

/-- The QUIT of the destructor. -/
theorem Sent.quit {history : List Event} {calls : List (Operation × Result α)}
    {tried : List Operation} (h : Sent history calls tried []) (answer : Answer) :
    Sent (history ++ Exchange.events ⟨quitLine, answer⟩) calls tried [quitLine] := by
  obtain ⟨code, greeting, es, es', hcode, rfl, haccepted, htried⟩ := h
  refine ⟨code, greeting, es, es' ++ [⟨quitLine, answer⟩], hcode, ?_, haccepted, ?_⟩
  · simp [List.flatMap_append]
  · rw [List.map_append, htried, List.append_nil]
    rfl

/-- Whether the script has come to its end is what the exit code says. -/
theorem Comes.exitCode {s t : NNTPClientSession π} {calls : List (Operation × Result α)}
    {y : Except Exception Unit} {x : Except Exception ℕ} {what : Exception → Bytes} {cerr : Bytes}
    (h : Comes poco script s calls y t) (hexits : Exits what [] cerr y x) :
    (x = .ok 0 ∧ calls.map Prod.fst = script ∧ cerr = []) ∨
      ((∃ bang, x = .ok 1 ∧ cerr = complaint what bang) ∨ x = .error .undefined) ∧
        calls.map Prod.fst ≠ script := by
  cases h with
  | through _ hops =>
      cases hexits with
      | returned hcerr => exact Or.inl ⟨rfl, hops, hcerr⟩
  | stopped _ hops _ =>
      have hne : calls.map Prod.fst ≠ script := by
        intro heq
        have hlength := congrArg List.length (heq.trans hops)
        simp at hlength
      cases hexits with
      | caught hcerr => exact Or.inr ⟨Or.inl ⟨_, rfl, hcerr⟩, hne⟩
      | undefined => exact Or.inr ⟨Or.inr rfl, hne⟩

theorem Comes.isPrefix {ops : List Operation} {s t : NNTPClientSession π}
    {calls : List (Operation × Result α)} {y : Except Exception Unit}
    (h : Comes poco ops s calls y t) : calls.map Prod.fst <+: ops := by
  cases h with
  | through _ hops => exact hops ▸ List.prefix_refl _
  | stopped _ hops _ => exact hops ▸ List.prefix_append _ _

theorem main_calls {what : Exception → Bytes} {socket : DialogSocket π} {t : NntpDump π}
    {x : Except Exception ℕ} (h : (main poco what).Evals (ofSocket socket) x t) :
    ∃ calls, Dumped poco what socket calls t x := by
  obtain ⟨y, d, hdump, hcout, hexits, hsession⟩ := main_cases h
  rw [dump_eq] at hdump
  rcases evals_bind.mp hdump with ⟨e, he, rfl⟩ | ⟨_, d', hd', hall⟩
  · obtain ⟨s, hs, rfl⟩ := evals_zoom.mp he
    obtain ⟨_, ⟨_, _, hok, _⟩ | ⟨_, r, _, hclosed, hhistory, hr⟩⟩ := openSession_exits rfl hs
    · exact absurd hok (by simp)
    have hnone : ([] : List Operation) ≠ script := by simp [script]
    refine ⟨[], ⟨_, .notOpened hs, hexits⟩, List.nil_prefix, hcout, ?_, Or.inl ⟨rfl, r, ?_, hr⟩⟩
    · cases hexits with
      | caught hcerr => exact Or.inr ⟨Or.inl ⟨_, rfl, hcerr⟩, hnone⟩
      | undefined => exact Or.inr ⟨Or.inr rfl, hnone⟩
    · rcases hsession with ⟨_, hsame⟩ | ⟨_, hdestroy⟩
      · rw [hsame]
        exact hhistory
      · rw [destroy_idle hclosed hdestroy]
        exact hhistory
  · obtain ⟨s, hs, rfl⟩ := evals_zoom.mp hd'
    obtain ⟨_, ⟨code, greeting, _, hcode, hopen, hhistory⟩ | ⟨_, _, herr, _⟩⟩ := openSession_exits rfl hs
    · obtain ⟨calls, hcomes, hprinted, hcerr⟩ := dumpAll_cases hall
      obtain ⟨hopen', hsent⟩ := hcomes.sent hopen hcode hhistory
      rw [hcerr] at hexits
      refine ⟨calls, ⟨y, .opened hs hcomes, hexits⟩, hcomes.isPrefix, hcout.trans hprinted,
        hcomes.exitCode hexits, Or.inr ?_⟩
      rcases hsession with ⟨rfl, hsame⟩ | ⟨hne, hdestroy⟩
      · rw [hsame, if_pos rfl]
        exact hsent
      · obtain ⟨answer, hquit⟩ := destroy_quits hopen' hdestroy
        rw [hquit, if_neg hne]
        exact hsent.quit answer
    · exact absurd herr (by simp)

/-- **What `nntp-dump` prints and sends**, whatever Poco and the server do: the sections of the commands
    that have returned, which are the first of the script, with the results they have returned, the message
    of the exception that has ended the script, and the command lines of these commands, of the one behind
    them, and QUIT. The exit code says whether they are all of the script. If the socket writes lines
    verbatim, these command lines are the bytes on the connection. -/
theorem main_dumped {what : Exception → Bytes} {socket : DialogSocket π} {t : NntpDump π}
    {x : Except Exception ℕ} (h : (main poco what).Evals (ofSocket socket) x t) :
    (∃ calls, Dumped poco what socket calls t x) ∧ (poco.WritesLines →
      t.session.m_socket.written = socket.written ++ sentBytes t.session.history) := by
  refine ⟨main_calls h, fun hlines => ?_⟩
  have hfaithful : Faithful (.ofSocket socket) t.session :=
    main_kept (faithful_calls hlines) what _ x t (.refl _) h
  exact hfaithful.of_socket

/-- All six commands are accepted. -/
theorem main_dumped_accepting :
    let poco := Poco.reference (Server.accepting [text "From: me", [], text "body"]) Reference.readAll id
    let what := fun _ : Exception => text "bang"
    ∃ t, (main poco what).Evals (ofSocket greetedSession.m_socket) (.ok 0) t ∧
      (∃ calls, Dumped poco what greetedSession.m_socket calls t (.ok 0)) ∧ (poco.WritesLines →
        t.session.m_socket.written =
          greetedSession.m_socket.written ++ sentBytes t.session.history) := by
  intro poco what
  have hrun : ((main poco what).run 99 (ofSocket greetedSession.m_socket)).map
      (fun x => (x.1, ())) = some (.ok 0, ()) := by
    decide +kernel
  obtain ⟨t, hmain, _⟩ := exists_evals_of_run 99 (fun _ : NntpDump ℕ => ()) hrun
  exact ⟨t, hmain, main_dumped hmain⟩

/-! ## On a server that answers -/

/-- What a call came to that has returned. -/
def returned (call : Operation × Result α) : Operation × Except Exception (Result α) :=
  (call.1, .ok call.2)

/-- The dialogue of a script: all its commands return, or the first that throws ends it. -/
inductive Told (poco : Poco π μ α) (server : Server π) (ops : List Operation) (g : Dialogue π)
    (calls : List (Operation × Result α)) : Except Exception Unit → Prop
  | through {g'} (hspeaks : Lts.Runs (Speaks poco server) g (calls.map returned) g')
      (hops : calls.map Prod.fst = ops) : Told poco server ops g calls (.ok ())
  | stopped {op rest e g'}
      (hspeaks : Lts.Runs (Speaks poco server) g (calls.map returned ++ [(op, .error e)]) g')
      (hops : ops = calls.map Prod.fst ++ op :: rest) : Told poco server ops g calls (.error e)

theorem Told.cons {ops : List Operation} {g g' : Dialogue π} {op : Operation} {r : Result α}
    {calls : List (Operation × Result α)} {x : Except Exception Unit}
    (h : Told poco server ops g' calls x) (hcall : Speaks poco server g (op, .ok r) g') :
    Told poco server (op :: ops) g ((op, r) :: calls) x := by
  cases h with
  | through hspeaks hops => exact .through (.cons hcall hspeaks) (congrArg (op :: ·) hops)
  | stopped hspeaks hops => exact .stopped (.cons hcall hspeaks) (congrArg (op :: ·) hops)

/-- **A script ends, and prints its dialogue.** -/
theorem dumpAll_told (hworks : Works poco server) {ops : List Operation}
    (hclean : ∀ op ∈ ops, op.Clean) {d : NntpDump π} {g : Dialogue π} (hd : Stands d.session g) :
    ∃ x t calls, (dumpAll poco ops).Evals d x t ∧ Told poco server ops g calls x ∧
      t.cout = d.cout ++ calls.flatMap (printSection poco) := by
  induction ops generalizing d g with
  | nil => exact ⟨_, _, [], evals_return () d, .through .nil rfl, (List.append_nil _).symm⟩
  | cons op ops ih =>
      obtain ⟨hop, hops⟩ := List.forall_mem_cons.mp hclean
      obtain ⟨y, s, hs, hspeaks, hconn, htaken⟩ :=
        call_speaks hworks hd.connected hd.unread hop
      rw [← hd.state] at hspeaks
      cases y with
      | error e =>
          exact ⟨_, _, [], dumpAll_cons.mpr (Or.inl ⟨e, s, hs, rfl, rfl⟩),
            .stopped (.single hspeaks) rfl, (List.append_nil _).symm⟩
      | ok r =>
          -- it has returned, so nothing of its response is left
          have hstands : Stands s (s.m_socket.peer, s.activeGroup) := ⟨hconn, htaken r rfl, rfl⟩
          obtain ⟨x, t, calls, heval, htold, hcout⟩ := ih hops
            (d := { d with session := s, cout := d.cout ++ printSection poco (op, r) }) hstands
          refine ⟨x, t, (op, r) :: calls, dumpAll_cons.mpr (Or.inr ⟨r, s, hs, heval⟩),
            htold.cons hspeaks, ?_⟩
          rw [hcout, List.flatMap_cons, List.append_assoc]

/-- Where the `try` block ends, `main` does. -/
theorem main_evals (what : Exception → Bytes) {d d' : NntpDump π} {y : Except Exception Unit}
    (h : (dump poco).Evals d y d') : ∃ x t, (main poco what).Evals d x t := by
  have hattempt : (Prog.attempt (dump poco)).Evals d (.ok y) d' := evals_attempt.mpr ⟨y, h, rfl⟩
  obtain ⟨s, hs⟩ := destroy_evals poco d'.session
  have hdestroy : (inSession (destroy poco)).Evals d' (.ok ()) { d' with session := s } :=
    Evals.zoom hs
  unfold main
  cases y with
  | ok u => exact ⟨_, _, hattempt.bind (hdestroy.bind (evals_return 0 _))⟩
  | error bang =>
      cases bang with
      | undefined => exact ⟨_, _, hattempt.bind (evals_throw.mpr ⟨rfl, rfl⟩)⟩
      | _ =>
          exact ⟨_, _, hattempt.bind (hdestroy.bind (evals_modify_bind.mpr (evals_return 1 _)))⟩

/-- **`nntp-dump` ends, and prints its dialogue** with a server that greets it and answers every command:
    the sections of what the responses mean, up to the first that means an exception. -/
theorem main_prints_dialogue (hworks : Works poco server) {socket : DialogSocket π}
    (hconn : socket.Connected) {greeting : Bytes} (hg : StatusLine greeting)
    (hcode : isPositiveCompletion (statusOf greeting) = true)
    (hgreeting : socket.unread = greeting ++ crlf) (what : Exception → Bytes) :
    ∃ x t y calls, (main poco what).Evals (ofSocket socket) x t ∧
      Told poco server script (socket.peer, ⟨[], 0, 0, 0⟩) calls y ∧
      t.cout = calls.flatMap (printSection poco) ∧ Exits what [] t.cerr y x := by
  obtain ⟨s, hopen, hstands⟩ := openSession_stands hworks.reads hconn hg hcode hgreeting
  have hopened : (inSession (openSession poco)).Evals (ofSocket socket) (.ok ())
      { ofSocket socket with session := s } := Evals.zoom hopen
  have hclean : ∀ op ∈ script, op.Clean := by decide
  obtain ⟨y, d, calls, hall, htold, hcout⟩ := dumpAll_told hworks hclean
    (d := { ofSocket socket with session := s }) hstands
  have hdump : (dump poco).Evals (ofSocket socket) y d := by
    rw [dump_eq]
    exact hopened.bind hall
  obtain ⟨x, t, hmain⟩ := main_evals what hdump
  obtain ⟨y', d', hdump', hprinted, hexits, _⟩ := main_cases hmain
  obtain ⟨rfl, rfl⟩ := hdump.unique hdump'
  obtain ⟨_, _, _, hcerr⟩ := dumpAll_cases hall
  rw [hcerr] at hexits
  exact ⟨x, t, y, calls, hmain, htold, hprinted.trans hcout, hexits⟩

theorem main_prints_dialogue_accepting :
    let server := Server.accepting [text "From: me", [], text "body"]
    let poco := Poco.reference server Reference.readAll id
    let what := fun _ : Exception => text "bang"
    ∃ x t y calls, (main poco what).Evals (ofSocket greetedSession.m_socket) x t ∧
      Told poco server script (0, ⟨[], 0, 0, 0⟩) calls y ∧
      t.cout = calls.flatMap (printSection poco) ∧ Exits what [] t.cerr y x := by
  intro server poco what
  have hg : StatusLine (text "200 ready") := ⟨by decide, rfl⟩
  have hworks : Works poco server := .reference (Server.accepting_conforms (by decide))
  exact main_prints_dialogue hworks ⟨rfl, rfl⟩ hg rfl rfl what

end NntpDump

end NntpPoco
