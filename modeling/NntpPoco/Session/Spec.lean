import NntpPoco.Poco.Laws
import NntpPoco.Session.Model

/-!
# `Session.Spec` — one specification for each building block of a command

What `call`, `multiLineResponse`, `misGet`, `readArticle`, `drain` and `articleBody` do to a session
whose socket holds known bytes, given the laws of `Poco.Laws`. The commands are put together from
these in the modules that follow; none of them unfolds a loop again.
-/

namespace NntpPoco

open Lines Prog

namespace NNTPClientSession

variable {π μ α β : Type} {poco : Poco π μ α} {server : Server π}

/-! ## Sessions after a read -/

/-- The session with other bytes left to read. -/
def withUnread (s : NNTPClientSession π) (raw : Bytes) : NNTPClientSession π :=
  { s with m_socket := { s.m_socket with unread := raw } }

/-- The session after its socket has become `socket`, with new events in the history. -/
def after (s : NNTPClientSession π) (socket : DialogSocket π) (events : List Event) :
    NNTPClientSession π :=
  { s with m_socket := socket, history := s.history ++ events }

@[simp] theorem withUnread_unread (s : NNTPClientSession π) (raw : Bytes) :
    (s.withUnread raw).m_socket.unread = raw := rfl

@[simp] theorem withUnread_withUnread (s : NNTPClientSession π) (raw raw' : Bytes) :
    (s.withUnread raw).withUnread raw' = s.withUnread raw' := rfl

theorem withUnread_self {s : NNTPClientSession π} {raw : Bytes} (h : s.m_socket.unread = raw) :
    s.withUnread raw = s := by
  subst h
  rfl

@[simp] theorem after_after (s : NNTPClientSession π) (socket socket' : DialogSocket π)
    (events events' : List Event) :
    (s.after socket events).after socket' events' = s.after socket' (events ++ events') := by
  simp [after]

/-! ## Calls on the socket -/

@[simp] theorem evals_call {f : Action π β} {events : Except Exception β → List Event}
    {s t : NNTPClientSession π} {r : Except Exception β} :
    (call f events).Evals s r t ↔
      r = (f s.m_socket).1 ∧ t = s.after (f s.m_socket).2 (events (f s.m_socket).1) := by
  simp [call, after, eq_comm]

theorem call_evals {f : Action π β} {events : Except Exception β → List Event}
    {s : NNTPClientSession π} {r : Except Exception β} {socket : DialogSocket π}
    (h : f s.m_socket = (r, socket)) : (call f events).Evals s r (s.after socket (events r)) := by
  rw [evals_call, h]
  exact ⟨rfl, rfl⟩

/-- A reader that only takes bytes, with no event of its own. -/
theorem call_evals_unread {f : Action π β} {s : NNTPClientSession π} {r : Except Exception β}
    {raw : Bytes} (h : f s.m_socket = (r, { s.m_socket with unread := raw })) :
    (call f fun _ => []).Evals s r (s.withUnread raw) := by
  have hcall : (call f fun _ => []).Evals s r (s.after { s.m_socket with unread := raw } []) :=
    call_evals h
  simpa [after, withUnread] using hcall

/-! ## `multiLineResponse` -/

/-- One round of the loop of `multiLineResponse`. -/
def multiLineRound (poco : Poco π μ α) (x : List Bytes × Bytes) :
    Method π ((List Bytes × Bytes) ⊕ List Bytes) := do
  if x.2 ≠ text "." then
    let next ← call poco.receiveMessage fun _ => []
    pure (.inl (x.1 ++ [x.2], next.2))
  else
    pure (.inr x.1)

theorem multiLineResponse_eq :
    multiLineResponse poco =
      (call poco.receiveMessage fun _ => []) >>= fun first =>
        loop (multiLineRound poco) ([], first.2) := rfl

theorem multiLineRound_dot (acc : List Bytes) (s : NNTPClientSession π) :
    (multiLineRound poco (acc, text ".")).Evals s (.ok (.inr acc)) s := by
  simp [multiLineRound]

theorem multiLineRound_line (acc : List Bytes) {line : Bytes} (hline : line ≠ text ".")
    {s : NNTPClientSession π} {more : Bool} {next raw : Bytes}
    (hnext : poco.receiveMessage s.m_socket =
      (.ok (more, next), { s.m_socket with unread := raw })) :
    (multiLineRound poco (acc, line)).Evals s (.ok (.inl (acc ++ [line], next)))
      (s.withUnread raw) := by
  simp only [multiLineRound, ne_eq, hline, not_false_eq_true, if_true]
  exact (call_evals_unread hnext).bind (by simp)

/-- Having received `line`, with the lines `more` in the socket, the loop collects everything up to
    the dot. -/
theorem multiLineLoop_evals (hreads : poco.Reads) {ls more : List Bytes} {line rest : Bytes}
    (acc : List Bytes) {s : NNTPClientSession π} (hlines : line :: more = ls ++ [text "."])
    (hfree : ∀ l ∈ more, BreakFree l) (hdot : ∀ l ∈ ls, l ≠ text ".")
    (hs : s.m_socket.unread = encodeLines more ++ rest) :
    (loop (multiLineRound poco) (acc, line)).Evals s (.ok (acc ++ ls)) (s.withUnread rest) := by
  -- on the lines still to come: `line` is the first of them, already off the socket
  induction ls generalizing acc s line more with
  | nil =>
      obtain ⟨rfl, rfl⟩ : line = text "." ∧ more = [] := by simpa using hlines
      rw [withUnread_self (by simpa using hs), List.append_nil]
      exact (multiLineRound_dot acc s).loop_exit
  | cons l ls ih =>
      obtain ⟨rfl, rfl⟩ : line = l ∧ more = ls ++ [text "."] := by simpa using hlines
      -- the next line in the socket is a later line of the list, or the dot
      obtain ⟨next, more', hnext⟩ : ∃ next more', ls ++ [text "."] = next :: more' := by
        cases ls with
        | nil => exact ⟨_, _, rfl⟩
        | cons l' ls => exact ⟨_, _, rfl⟩
      rw [hnext] at hfree hs
      have hunread : s.m_socket.unread = next ++ (crlf ++ (encodeLines more' ++ rest)) := by
        simpa using hs
      have hround := multiLineRound_line acc (hdot line List.mem_cons_self)
        (hreads.receiveMessage s.m_socket next _ (hfree next List.mem_cons_self) hunread)
      have hloop := ih (acc ++ [line]) (s := s.withUnread (encodeLines more' ++ rest))
        hnext.symm (fun l hl => hfree l (List.mem_cons_of_mem _ hl))
        (fun l hl => hdot l (List.mem_cons_of_mem _ hl)) rfl
      rw [List.append_assoc] at hloop
      exact hround.loop_again hloop

/-- **`multiLineResponse` takes a block, and gives its lines as they were on the wire.** -/
theorem multiLineResponse_evals (hreads : poco.Reads) {ls : List Bytes}
    (hls : ∀ l ∈ ls, BreakFree l) {s : NNTPClientSession π} {rest : Bytes}
    (hs : s.m_socket.unread = encodeBlock ls ++ rest) :
    (multiLineResponse poco).Evals s (.ok (ls.map stuff)) (s.withUnread rest) := by
  have hdot : ∀ l ∈ ls.map stuff, l ≠ text "." := by
    intro l hl
    obtain ⟨l', _, rfl⟩ := List.mem_map.mp hl
    exact stuff_ne_dot l'
  have hfree := breakFree_blockLines hls
  obtain ⟨first, more, hfirst⟩ : ∃ first more, blockLines ls = first :: more := by
    cases ls with
    | nil => exact ⟨_, _, rfl⟩
    | cons l ls => exact ⟨_, _, rfl⟩
  rw [encodeBlock_eq, hfirst] at hs
  rw [hfirst] at hfree
  have hunread : s.m_socket.unread = first ++ (crlf ++ (encodeLines more ++ rest)) := by
    simpa using hs
  rw [multiLineResponse_eq]
  refine (call_evals_unread (hreads.receiveMessage s.m_socket first _
    (hfree first List.mem_cons_self) hunread)).bind ?_
  exact multiLineLoop_evals hreads [] (s := s.withUnread (encodeLines more ++ rest))
    hfirst.symm (fun l hl => hfree l (List.mem_cons_of_mem _ hl)) hdot rfl

end NNTPClientSession

end NntpPoco
