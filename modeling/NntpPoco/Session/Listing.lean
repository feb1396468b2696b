import NntpPoco.Lib.Fields
import NntpPoco.Poco.Reference
import NntpPoco.Session.Commands

/-!
# `Session.Listing` — what `listNewsGroups` makes of a listing

A line of the listing is a name, white space and a description: two fields in the sense of
`Lib.Fields`. The lambda of `listNewsGroups` finds the fields by position, and passes the result of
`find_first_not_of` to `substr` as it is (`groupDesc_eq`): where the line ends in the white space after
the name, that is `npos`, and the exception takes the whole listing with it. `listing_parses_iff` is the
exact condition, for lines and for lines put together from names and descriptions.
-/

namespace NntpPoco

open Lines Prog Fields NNTPClientSession

variable {π μ α : Type} {poco : Poco π μ α} {server : Server π}

/-! ## One line -/

/-- The white space of a listing. -/
def isBlank (b : UInt8) : Bool := decide (b ∈ text " \t")

/-- The two fields of a line. -/
def descOf (line : Bytes) : GroupDesc := (first isBlank line, second isBlank line)

theorem findFirstOf_blank (line : Bytes) :
    line.findFirstOf (text " \t") 0 = line.findIdx? isBlank := by
  show (line.findIdx? isBlank).map (· + 0) = _
  cases line.findIdx? isBlank <;> rfl

theorem findFirstNotOf_blank (line : Bytes) (pos : ℕ) :
    line.findFirstNotOf (text " \t") pos =
      ((line.drop pos).findIdx? fun b => !isBlank b).map (· + pos) := by
  have hnot : (fun b => decide (b ∉ text " \t")) = fun b => !isBlank b := by
    funext b
    exact decide_not
  rw [Bytes.findFirstNotOf, hnot]

/-- **The lambda of `listNewsGroups`**: the two fields, unless the line ends in white space after the
    name. -/
theorem groupDesc_eq (line : Bytes) :
    groupDesc line = if Dangling isBlank line then .error .outOfRange else .ok (descOf line) := by
  unfold groupDesc descOf
  rw [findFirstOf_blank]
  cases hpos : line.findIdx? isBlank with
  | none =>
      obtain ⟨hfirst, hsecond, hdangling⟩ := fields_of_findIdx_none hpos
      rw [if_neg hdangling, hfirst, hsecond]
  | some pos =>
      have hlt : pos < line.length := (List.findIdx?_eq_some_iff_findIdx_eq.mp hpos).1
      have hname : line.substr 0 pos = .ok (first isBlank line) := by
        rw [first_of_findIdx hpos]
        exact if_pos (Nat.zero_le _)
      show (line.substr 0 pos >>= fun name =>
        line.substrFrom (line.findFirstNotOf (text " \t") (pos + 1)) >>= fun description =>
          pure (name, description)) = _
      rw [findFirstNotOf_blank, hname]
      cases hnext : (line.drop (pos + 1)).findIdx? (fun b => !isBlank b) with
      | none =>
          -- `substr(npos)`
          rw [if_pos (dangling_of_findIdx hpos hnext)]
          rfl
      | some skipped =>
          obtain ⟨hsecond, hdangling⟩ := second_of_findIdx hpos hnext
          have hskipped := (List.findIdx?_eq_some_iff_findIdx_eq.mp hnext).1
          rw [List.length_drop] at hskipped
          have hdescription : line.substrFrom (some (skipped + (pos + 1))) =
              .ok (second isBlank line) := by
            rw [hsecond]
            exact if_pos (by omega)
          rw [if_neg hdangling, Option.map_some, hdescription]
          rfl

/-! ## All lines -/

/-- One line that ends in white space after its name loses the listing. -/
theorem mapM_groupDesc (ls : List Bytes) :
    ls.mapM groupDesc =
      if ∀ l ∈ ls, ¬ Dangling isBlank l then .ok (ls.map descOf) else .error .outOfRange := by
  induction ls with
  | nil => rfl
  | cons l ls ih =>
      rw [List.mapM_cons, groupDesc_eq]
      by_cases hl : Dangling isBlank l
      · rw [if_pos hl, if_neg fun h => h l List.mem_cons_self hl]
        rfl
      · rw [if_neg hl, ih]
        by_cases hls : ∀ l ∈ ls, ¬ Dangling isBlank l
        · have hall : ∀ x ∈ l :: ls, ¬ Dangling isBlank x := List.forall_mem_cons.mpr ⟨hl, hls⟩
          rw [if_pos hls, if_pos hall]
          rfl
        · rw [if_neg hls, if_neg fun h => hls (List.forall_mem_cons.mp h).2]
          rfl

/-! ## Entries -/

/-- A name, the white space after it and a description, as a server joins them to a line. -/
structure Entry where
  name : Bytes
  separator : Bytes
  description : Bytes
  name_noBlank : ∀ b ∈ name, isBlank b = false
  separator_ne_nil : separator ≠ []
  separator_blank : ∀ b ∈ separator, isBlank b = true
  description_noBlank : ∀ b ∈ description.head?, isBlank b = false

namespace Entry

def line (e : Entry) : Bytes := e.name ++ (e.separator ++ e.description)

def desc (e : Entry) : GroupDesc := (e.name, e.description)

theorem descOf_line (e : Entry) : descOf e.line = e.desc := by
  unfold descOf line desc
  rw [first_join e.name_noBlank e.separator_ne_nil e.separator_blank,
    second_join e.name_noBlank e.separator_ne_nil e.separator_blank e.description_noBlank]

theorem dangling_line (e : Entry) : Dangling isBlank e.line ↔ e.description = [] :=
  dangling_join e.name_noBlank e.separator_ne_nil e.separator_blank e.description_noBlank

end Entry

/-! ## The whole call -/

/-- `listNewsGroups` on an accepted listing, whatever its lines are. -/
theorem listNewsGroups_evals (hwrites : poco.Writes server) (hreads : poco.Reads)
    {s : NNTPClientSession π} (hconn : s.m_socket.Connected) (hunread : s.m_socket.unread = [])
    {wildMat l rest : Bytes} {ls : List Bytes} (hls : ∀ x ∈ ls, BreakFree x) (hl : StatusLine l)
    (hstatus : isPositiveCompletion (statusOf l) = true)
    (hreact : (server.react s.m_socket.peer (Operation.listNewsGroups wildMat).line).2.1 =
      l ++ (crlf ++ (encodeBlock ls ++ rest))) :
    ∃ t, (listNewsGroups poco wildMat).Evals s ((ls.map stuff).mapM groupDesc) t := by
  obtain ⟨response, _, hexchange⟩ := exchange_evals hreads
    ((Operation.listNewsGroups wildMat).send_eq hwrites hconn) hunread hl hreact
  exact ⟨_, hexchange.bind (listTail_evals hreads hstatus hls rfl response)⟩

/-- A listing that is returned has one entry for each line. -/
theorem listNewsGroups_length (hwrites : poco.Writes server) (hreads : poco.Reads)
    {s t : NNTPClientSession π} (hconn : s.m_socket.Connected) (hunread : s.m_socket.unread = [])
    {wildMat l body rest : Bytes} {ls : List Bytes} (hls : ∀ x ∈ ls, BreakFree x) (hl : StatusLine l)
    (hreact : (server.react s.m_socket.peer (Operation.listNewsGroups wildMat).line).2.1 =
      l ++ (crlf ++ body))
    (hbody : isPositiveCompletion (statusOf l) = true → body = encodeBlock ls ++ rest)
    {groupDescs : List GroupDesc} (h : (listNewsGroups poco wildMat).Evals s (.ok groupDescs) t) :
    groupDescs.length = ls.length := by
  cases hstatus : isPositiveCompletion (statusOf l) with
  | false =>
      -- a refused listing throws
      obtain ⟨response, _, hexchange⟩ := exchange_evals hreads
        ((Operation.listNewsGroups wildMat).send_eq hwrites hconn) hunread hl hreact
      have hthrows : (listNewsGroups poco wildMat).Evals s (.error _) _ :=
        hexchange.bind (listTail_refused hstatus response)
      exact absurd (h.unique hthrows).1 (by simp)
  | true =>
      rw [hbody hstatus] at hreact
      obtain ⟨t', hlisted⟩ := listNewsGroups_evals hwrites hreads hconn hunread hls hl hstatus hreact
      have hgroups := (h.unique hlisted).1
      rw [mapM_groupDesc] at hgroups
      by_cases hdangling : ∀ l ∈ ls.map stuff, ¬ Dangling isBlank l
      · rw [if_pos hdangling] at hgroups
        rw [Except.ok.inj hgroups, List.length_map, List.length_map]
      · rw [if_neg hdangling] at hgroups
        exact absurd hgroups (by simp)

/-- **Which listings are parsed.** `listNewsGroups` returns the two fields of every line exactly when no
    line ends in white space after its name. For lines put together from entries these are their names
    and descriptions, and the condition is that no description is empty. -/
theorem listing_parses_iff (hwrites : poco.Writes server) (hreads : poco.Reads)
    {s : NNTPClientSession π} (hconn : s.m_socket.Connected) (hunread : s.m_socket.unread = [])
    {wildMat l rest : Bytes} {ls : List Bytes}
    (hls : ∀ x ∈ ls, BreakFree x ∧ x.head? ≠ some LineSyntax.dot) (hl : StatusLine l)
    (hstatus : isPositiveCompletion (statusOf l) = true)
    (hreact : (server.react s.m_socket.peer (Operation.listNewsGroups wildMat).line).2.1 =
      l ++ (crlf ++ (encodeBlock ls ++ rest))) :
    ((∃ t, (listNewsGroups poco wildMat).Evals s (.ok (ls.map descOf)) t) ↔
      ∀ x ∈ ls, ¬ Dangling isBlank x) ∧
    ∀ entries : List Entry, ls = entries.map Entry.line →
      ((∃ t, (listNewsGroups poco wildMat).Evals s (.ok (entries.map Entry.desc)) t) ↔
        ∀ e ∈ entries, e.description ≠ []) := by
  obtain ⟨t, heval⟩ := listNewsGroups_evals hwrites hreads hconn hunread (fun x hx => (hls x hx).1) hl
    hstatus hreact
  rw [map_stuff_eq_self_iff.mpr fun x hx => (hls x hx).2, mapM_groupDesc] at heval
  have hlines : (∃ t, (listNewsGroups poco wildMat).Evals s (.ok (ls.map descOf)) t) ↔
      ∀ x ∈ ls, ¬ Dangling isBlank x := by
    constructor
    · rintro ⟨t', hreturns⟩
      by_contra hcond
      rw [if_neg hcond] at heval
      exact absurd (heval.unique hreturns).1 (by simp)
    · intro hcond
      rw [if_pos hcond] at heval
      exact ⟨t, heval⟩
  refine ⟨hlines, ?_⟩
  rintro entries rfl
  have hdescs : (entries.map Entry.line).map descOf = entries.map Entry.desc := by
    rw [List.map_map]
    exact List.map_congr_left fun e _ => e.descOf_line
  rw [← hdescs, hlines, List.forall_mem_map]
  constructor
  · intro h e he hempty
    exact h e he (e.dangling_line.mpr hempty)
  · intro h e he hdangling
    exact h e he (e.dangling_line.mp hdangling)

/-- A listing of two groups, the second one without a description. -/
theorem listing_parses_iff_accepting :
    let ls := [text "boost.user  Users", text "boost.test"]
    let poco := Poco.reference (Server.accepting ls) Reference.readAll id
    ((∃ t, (listNewsGroups poco []).Evals openedSession (.ok (ls.map descOf)) t) ↔
      ∀ x ∈ ls, ¬ Dangling isBlank x) ∧
    ∀ entries : List Entry, ls = entries.map Entry.line →
      ((∃ t, (listNewsGroups poco []).Evals openedSession (.ok (entries.map Entry.desc)) t) ↔
        ∀ e ∈ entries, e.description ≠ []) := by
  intro ls poco
  have hreact : ((Server.accepting ls).react openedSession.m_socket.peer
      (Operation.listNewsGroups []).line).2.1 =
        text "220 follows" ++ (crlf ++ (encodeBlock ls ++ [])) := rfl
  exact listing_parses_iff Reference.writes Reference.reads ⟨rfl, rfl⟩ rfl (by decide)
    ⟨by decide, rfl⟩ rfl hreact

/-- White space behind the name of one group, and both groups are lost. -/
theorem listing_lost :
    let ls := [text "boost.user  Users", text "boost.test "]
    let poco := Poco.reference (Server.accepting ls) Reference.readAll id
    (∃ t, (listNewsGroups poco []).Evals openedSession (.error .outOfRange) t) ∧
      ¬ ∃ t, (listNewsGroups poco []).Evals openedSession (.ok (ls.map descOf)) t := by
  intro ls poco
  have hthrows : (listNewsGroups poco []).Evals openedSession (.error .outOfRange) _ :=
    .of_run 9 (by rfl)
  refine ⟨⟨_, hthrows⟩, ?_⟩
  rintro ⟨t, hreturns⟩
  exact absurd (hthrows.unique hreturns).1 (by simp)

end NntpPoco
