import NntpPoco.Session.Framing

/-!
# `Session.Group` — the reply to GROUP

`selectNewsGroup` takes four things out of one line and assigns four members on the way. `replyGroup`
says what the line holds, in its own terms (tokens between single spaces); the members hold it exactly
when all of it is there. When it is not, the members assigned before the first bad number stay
assigned, which is what `allOrNothing_iff` is about.
-/

namespace NntpPoco

open Lines Prog NNTPClientSession

variable {π μ α : Type} {poco : Poco π μ α}

/-! ## What a reply says -/

/-- The tokens of a reply, split at single spaces. -/
def replyTokens (reply : Bytes) : List Bytes := if reply = [] then [] else reply.splitOn 32

/-- The number in token `index`, where there is one and `parseUnsigned` accepts it. -/
def replyNumber (poco : Poco π μ α) (reply : Bytes) (index : ℕ) : Option UInt32 :=
  (replyTokens reply)[index]?.bind fun token => (poco.parseUnsigned token).toOption

/-- The group an accepted reply describes, if it does. -/
def replyGroup (poco : Poco π μ α) (newsgroup reply : Bytes) : Option ActiveNewsGroup := do
  let numArticles ← replyNumber poco reply 1
  let lowArticle ← replyNumber poco reply 2
  let highArticle ← replyNumber poco reply 3
  return ⟨newsgroup, numArticles, lowArticle, highArticle⟩

/-- The group that is selected by an exchange with the outcome `r`, if one is. -/
def selectedBy (poco : Poco π μ α) (newsgroup : Bytes) :
    Except Exception (Int × Bytes) → Option ActiveNewsGroup
  | .ok (status, reply) =>
    if isPositiveCompletion status then replyGroup poco newsgroup reply else none
  | .error _ => none

/-- The code's way to a number of the reply agrees with `replyNumber`. -/
theorem groupField_toOption (htokenizes : poco.Tokenizes) (reply : Bytes) (index : ℕ) :
    (groupField poco reply index).toOption = replyNumber poco reply index := by
  unfold groupField replyNumber replyTokens token
  rw [show text " " = [32] from rfl, htokenizes]
  cases (if reply = [] then [] else reply.splitOn 32)[index]? with
  | none => rfl
  | some tok => rfl

theorem groupField_of_some (htokenizes : poco.Tokenizes) {reply : Bytes} {index : ℕ} {n : UInt32}
    (h : replyNumber poco reply index = some n) : groupField poco reply index = .ok n := by
  rw [← groupField_toOption htokenizes] at h
  cases hfield : groupField poco reply index with
  | error e =>
      rw [hfield] at h
      exact absurd h (by simp [Except.toOption])
  | ok m =>
      rw [hfield] at h
      rw [Option.some.inj h]

theorem groupField_of_none (htokenizes : poco.Tokenizes) {reply : Bytes} {index : ℕ}
    (h : replyNumber poco reply index = none) : ∃ e, groupField poco reply index = .error e := by
  rw [← groupField_toOption htokenizes] at h
  cases hfield : groupField poco reply index with
  | error e => exact ⟨e, rfl⟩
  | ok m =>
      rw [hfield] at h
      exact absurd h (by simp [Except.toOption])

/-! ## The members -/

/-- The members of a session that describe its group. -/
def NNTPClientSession.activeGroup (s : NNTPClientSession π) : ActiveNewsGroup :=
  ⟨s.m_newsGroup, s.m_numArticles, s.m_lowArticle, s.m_highArticle⟩

/-- The exchange leaves the members alone. -/
theorem sendCommandArg_activeGroup {command arg : Bytes} {s t : NNTPClientSession π}
    {r : Except Exception (Int × Bytes)} (h : (sendCommandArg poco command arg).Evals s r t) :
    t.activeGroup = s.activeGroup := by
  rw [sendCommandArg_eq] at h
  exact exchange_keeps (I := fun s' => s'.activeGroup = s.activeGroup)
    (fun _ hs' => hs') (fun _ hs' => hs') s r t rfl h

/-- What an accepted reply has `selectNewsGroup` assign before the first bad number is what the
    members hold already. -/
def AssignsNothingNew (poco : Poco π μ α) (newsgroup reply : Bytes) (s : NNTPClientSession π) : Prop :=
  newsgroup = s.m_newsGroup ∧
    ∀ numArticles, replyNumber poco reply 1 = some numArticles →
      numArticles = s.m_numArticles ∧
        ∀ lowArticle, replyNumber poco reply 2 = some lowArticle → lowArticle = s.m_lowArticle

/-- A reply that describes a group: all four members are assigned. -/
theorem groupOutcome_of_some (htokenizes : poco.Tokenizes) {newsgroup reply : Bytes}
    {g : ActiveNewsGroup} (h : replyGroup poco newsgroup reply = some g) (s : NNTPClientSession π) :
    (groupOutcome poco newsgroup reply s).1 = .ok g ∧
      (groupOutcome poco newsgroup reply s).2.activeGroup = g := by
  obtain ⟨numArticles, h1, h⟩ := Option.bind_eq_some_iff.mp h
  obtain ⟨lowArticle, h2, h⟩ := Option.bind_eq_some_iff.mp h
  obtain ⟨highArticle, h3, h⟩ := Option.bind_eq_some_iff.mp h
  obtain rfl := Option.some.inj h
  unfold groupOutcome
  rw [groupField_of_some htokenizes h1, groupField_of_some htokenizes h2,
    groupField_of_some htokenizes h3]
  exact ⟨rfl, rfl⟩

/-- A reply that does not: the call throws, and its assignments up to there stay. -/
theorem groupOutcome_of_none (htokenizes : poco.Tokenizes) {newsgroup reply : Bytes}
    (h : replyGroup poco newsgroup reply = none) (s : NNTPClientSession π) :
    (∃ e, (groupOutcome poco newsgroup reply s).1 = .error e) ∧
      ((groupOutcome poco newsgroup reply s).2.activeGroup = s.activeGroup ↔
        AssignsNothingNew poco newsgroup reply s) := by
  unfold groupOutcome
  cases h1 : replyNumber poco reply 1 with
  | none =>
      obtain ⟨e, he⟩ := groupField_of_none htokenizes h1
      rw [he]
      exact ⟨⟨e, rfl⟩, by simp [activeGroup, AssignsNothingNew, h1]⟩
  | some numArticles =>
      rw [groupField_of_some htokenizes h1]
      cases h2 : replyNumber poco reply 2 with
      | none =>
          obtain ⟨e, he⟩ := groupField_of_none htokenizes h2
          rw [he]
          exact ⟨⟨e, rfl⟩, by simp [activeGroup, AssignsNothingNew, h1, h2]⟩
      | some lowArticle =>
          rw [groupField_of_some htokenizes h2]
          -- the first two numbers are there, so the third is the one that is not
          have h3 : replyNumber poco reply 3 = none := by
            cases h3 : replyNumber poco reply 3 with
            | none => rfl
            | some highArticle =>
                rw [replyGroup, h1, h2, h3] at h
                exact absurd h (by simp)
          obtain ⟨e, he⟩ := groupField_of_none htokenizes h3
          rw [he]
          exact ⟨⟨e, rfl⟩, by simp [activeGroup, AssignsNothingNew, h1, h2]⟩

/-! ## All or nothing -/

/-- `selectNewsGroup`, whose exchange has the outcome `r`, returns the group of an accepted reply that
    describes one, with the members holding it; otherwise it throws with the members as they were. -/
def AllOrNothing (poco : Poco π μ α) (newsgroup : Bytes) (s : NNTPClientSession π)
    (r : Except Exception (Int × Bytes)) : Prop :=
  ∃ x t, (selectNewsGroup poco newsgroup).Evals s x t ∧
    (∀ g, selectedBy poco newsgroup r = some g → x = .ok g ∧ t.activeGroup = g) ∧
    (selectedBy poco newsgroup r = none → (∃ e, x = .error e) ∧ t.activeGroup = s.activeGroup)

/-- **All or nothing, but for replies with a bad number.** After an accepted reply that describes no
    group, the members are what they were exactly when the call had nothing new to assign before it
    threw; in every other case the call is all or nothing. -/
theorem allOrNothing_iff (htokenizes : poco.Tokenizes) {newsgroup : Bytes}
    {s s₁ : NNTPClientSession π} {r : Except Exception (Int × Bytes)}
    (hexchange : (sendCommandArg poco (text "GROUP") newsgroup).Evals s r s₁) :
    AllOrNothing poco newsgroup s r ↔
      ∀ status reply, r = .ok (status, reply) → isPositiveCompletion status = true →
        replyGroup poco newsgroup reply = none → AssignsNothingNew poco newsgroup reply s := by
  have hmembers := sendCommandArg_activeGroup hexchange
  unfold AllOrNothing
  rw [selectNewsGroup_eq]
  cases r with
  | error e =>
      refine ⟨fun _ => by simp, fun _ => ⟨_, s₁, hexchange.bind_error, ?_, ?_⟩⟩
      · exact fun g hg => absurd hg (by simp [selectedBy])
      · exact fun _ => ⟨⟨e, rfl⟩, hmembers⟩
  | ok answer =>
      obtain ⟨status, reply⟩ := answer
      cases hstatus : isPositiveCompletion status with
      | false =>
          refine ⟨fun _ => by simp [hstatus], fun _ =>
            ⟨_, s₁, hexchange.bind (groupTail_refused hstatus newsgroup reply), ?_, ?_⟩⟩
          · exact fun g hg => absurd hg (by simp [selectedBy, hstatus])
          · exact fun _ => ⟨⟨_, rfl⟩, hmembers⟩
      | true =>
          have heval := hexchange.bind (groupTail_accepted poco hstatus newsgroup reply)
          have hselected : selectedBy poco newsgroup (.ok (status, reply)) =
              replyGroup poco newsgroup reply := if_pos hstatus
          -- what is assigned is compared with the members before the exchange, which are the same
          have hnew : AssignsNothingNew poco newsgroup reply s₁ ↔
              AssignsNothingNew poco newsgroup reply s := by
            simp only [activeGroup, ActiveNewsGroup.mk.injEq] at hmembers
            simp only [AssignsNothingNew, hmembers]
          rw [hselected]
          cases hgroup : replyGroup poco newsgroup reply with
          | some g =>
              obtain ⟨hx, ht⟩ := groupOutcome_of_some htokenizes hgroup s₁
              refine ⟨fun _ => by simp [hgroup], fun _ => ⟨_, _, heval, ?_, by simp⟩⟩
              rintro g' ⟨⟩
              exact ⟨hx, ht⟩
          | none =>
              obtain ⟨hx, ht⟩ := groupOutcome_of_none htokenizes hgroup s₁
              rw [hmembers, hnew] at ht
              constructor
              · rintro ⟨x, t, heval', _, hnone⟩ status' reply' heq _ _
                obtain ⟨-, rfl⟩ := Prod.mk.inj (Except.ok.inj heq)
                have hkept := (hnone rfl).2
                rw [(heval'.unique heval).2] at hkept
                exact ht.mp hkept
              · intro hassigns
                refine ⟨_, _, heval, by simp, fun _ => ⟨hx, ?_⟩⟩
                exact ht.mpr (hassigns status reply rfl hstatus hgroup)

theorem allOrNothing_iff_group :
    let poco := Poco.reference (Server.saying (text "211 9 1 9 g\r\n") false) Reference.readAll id
    let r := .ok (211, text "211 9 1 9 g")
    AllOrNothing poco (text "g") openedSession r ↔
      ∀ status reply, r = .ok (status, reply) → isPositiveCompletion status = true →
        replyGroup poco (text "g") reply = none →
        AssignsNothingNew poco (text "g") reply openedSession :=
  allOrNothing_iff Reference.tokenizes (.of_run 1 rfl)

/-- A reply without its last number: the call throws, and the session has the name of the new group
    and two of its numbers. -/
theorem group_half_assigned :
    let poco := Poco.reference (Server.saying (text "211 9 1\r\n") false) Reference.readAll id
    ∃ t, (selectNewsGroup poco (text "g")).Evals openedSession (.error .range) t ∧
      t.activeGroup = ⟨text "g", 9, 1, 0⟩ ∧ openedSession.activeGroup = ⟨[], 0, 0, 0⟩ ∧
      ¬ AllOrNothing poco (text "g") openedSession (.ok (211, text "211 9 1")) := by
  intro poco
  have hrun : (selectNewsGroup poco (text "g")).Evals openedSession (.error .range) _ :=
    .of_run 1 rfl
  refine ⟨_, hrun, rfl, rfl, ?_⟩
  rintro ⟨x, t, heval, _, hnone⟩
  have hkept := (hnone (by decide)).2
  rw [(heval.unique hrun).2] at hkept
  exact absurd hkept (by decide)

end NntpPoco
