import NntpPoco.Lib.Interval
import NntpPoco.Lib.Lts
import NntpPoco.Session.Lifecycle
import NntpPoco.Session.Outcome

/-!
# `Reader.Protocol` — the commands of the news reader, as a protocol

The order in which `news-reader` may send its commands, as a machine of its own: `Stage` is where a
visit to a server has come to, and `Step` has one constructor for every exchange that is allowed there,
whatever its answer is. The names of the groups that the server lists are a parameter of it. There is no
console in it and no menu; `Reader.Wire` shows that `main` never leaves it.

The second half is about the machine alone: QUIT is the last command (`quit_last`), ARTICLE comes right
behind the accepted STAT of its number (`article_behind_stat`), and what has been found of a group is at
most ten of its numbers, in order (`bounded_of_runs`).
-/

namespace NntpPoco

open NNTPClientSession

namespace NewsReader

variable {π μ α : Type} {poco : Poco π μ α} {names : List Bytes}

/-! ## The machine -/

/-- The one listing that is asked for. -/
def listing : Operation := .listNewsGroups (text "gmane.comp.*.boost.*")

/-- What a visit has learned: the group that is selected, and the numbers of the articles that have been
    fetched since. -/
structure Visit where
  group : ActiveNewsGroup
  found : List UInt32

/-- Where a visit has come to. -/
inductive Stage
  /-- LIST comes next -/
  | listing
  /-- the user decides: GROUP, or QUIT -/
  | menu (v : Visit)
  /-- STAT for `number` comes next, with `count` articles fetched -/
  | walking (v : Visit) (number count : UInt32)
  /-- ARTICLE for `number` comes next -/
  | fetching (v : Visit) (number count : UInt32)
  /-- something went wrong: QUIT comes next -/
  | leaving
  /-- nothing comes next -/
  | finished

/-- The walk through the numbers of the group goes on at `number`, or is over. -/
def Visit.walk (v : Visit) (number count : UInt32) : Stage :=
  if number ≤ v.group.highArticle ∧ count < 10 then .walking v number count else .menu v

/-- One exchange of a visit to a server that lists the groups `names`. -/
inductive Step (poco : Poco π μ α) (names : List Bytes) : Stage → Exchange → Stage → Prop
  | listed {answer} (h : answer.completed = true) :
      Step poco names .listing ⟨listing.line, answer⟩ (.menu ⟨⟨[], 0, 0, 0⟩, []⟩)
  | notListed {answer} : Step poco names .listing ⟨listing.line, answer⟩ .leaving
  | selected {v name code reply g} (hname : name ∈ names) (hcode : isPositiveCompletion code = true)
      (hg : groupReply poco name reply = .ok g) :
      Step poco names (.menu v) ⟨(Operation.selectNewsGroup name).line, .status code reply⟩
        (Visit.walk ⟨g, []⟩ g.lowArticle 0)
  | notSelected {v name answer} (hname : name ∈ names)
      (h : ∀ code reply g, answer = .status code reply → isPositiveCompletion code = true →
        groupReply poco name reply ≠ .ok g) :
      Step poco names (.menu v) ⟨(Operation.selectNewsGroup name).line, answer⟩ .leaving
  | present {v number count answer} (h : answer.completed = true) :
      Step poco names (.walking v number count) ⟨(Operation.stat number).line, answer⟩
        (.fetching v number count)
  | absent {v number count code reply} (h : isPositiveCompletion code = false) :
      Step poco names (.walking v number count) ⟨(Operation.stat number).line, .status code reply⟩
        (v.walk (number + 1) count)
  | notAsked {v number count answer} (h : ∀ code reply, answer ≠ .status code reply) :
      Step poco names (.walking v number count) ⟨(Operation.stat number).line, answer⟩ .leaving
  | fetched {v number count answer} (h : answer.completed = true) :
      Step poco names (.fetching v number count) ⟨(Operation.articleNumber number).line, answer⟩
        (Visit.walk ⟨v.group, v.found ++ [number]⟩ (number + 1) (count + 1))
  | notFetched {v number count answer} :
      Step poco names (.fetching v number count) ⟨(Operation.articleNumber number).line, answer⟩ .leaving
  | quit {v answer} : Step poco names (.menu v) ⟨NntpPoco.quitLine, answer⟩ .finished
  | left {answer} : Step poco names .leaving ⟨NntpPoco.quitLine, answer⟩ .finished

/-! ## The order of the commands -/

/-- The first letter of a command line. -/
def letter : Operation → UInt8
  | .capabilities => 67
  | .listNewsGroups _ => 76
  | .selectNewsGroup _ => 71
  | .articleHeader => 72
  | .articleRaw => 65
  | .article => 65
  | .articleNumber _ => 65
  | .stat _ => 83

theorem head_line (op : Operation) : op.line.head? = some (letter op) := by
  cases op <;> rfl

theorem letter_of_line {op op' : Operation} (h : op.line = op'.line) : letter op = letter op' := by
  have hhead := congrArg List.head? h
  rw [head_line, head_line] at hhead
  exact Option.some.inj hhead

/-- No other command begins like QUIT. -/
theorem line_ne_quit (op : Operation) : op.line ≠ NntpPoco.quitLine := by
  intro h
  have hhead : some (letter op) = some 81 := by
    rw [← head_line, h]
    rfl
  cases op <;> exact absurd (Option.some.inj hhead) (by simp [letter])

/-- The command that is due at a stage. -/
inductive Due (names : List Bytes) : Stage → Bytes → Prop
  | list : Due names .listing listing.line
  | group {v name} (hname : name ∈ names) : Due names (.menu v) (Operation.selectNewsGroup name).line
  | stat {v number count} : Due names (.walking v number count) (Operation.stat number).line
  | article {v number count} :
      Due names (.fetching v number count) (Operation.articleNumber number).line

/-- **Every exchange is of the command that is due**, or it is the QUIT that ends the visit. -/
theorem Step.due {p q : Stage} {e : Exchange} (h : Step poco names p e q) :
    Due names p e.line ∨ (e.line = NntpPoco.quitLine ∧ q = .finished) := by
  cases h with
  | listed _ => exact Or.inl .list
  | notListed => exact Or.inl .list
  | selected hname _ _ => exact Or.inl (.group hname)
  | notSelected hname _ => exact Or.inl (.group hname)
  | present _ => exact Or.inl .stat
  | absent _ => exact Or.inl .stat
  | notAsked _ => exact Or.inl .stat
  | fetched _ => exact Or.inl .article
  | notFetched => exact Or.inl .article
  | quit => exact Or.inr ⟨rfl, rfl⟩
  | left => exact Or.inr ⟨rfl, rfl⟩

theorem Due.operation {p : Stage} {line : Bytes} (h : Due names p line) :
    ∃ op : Operation, line = op.line := by
  cases h with
  | list => exact ⟨listing, rfl⟩
  | @group v name _ => exact ⟨.selectNewsGroup name, rfl⟩
  | @stat v number count => exact ⟨.stat number, rfl⟩
  | @article v number count => exact ⟨.articleNumber number, rfl⟩

theorem not_step_finished {e : Exchange} {q : Stage} : ¬ Step poco names .finished e q := by
  intro h
  cases h

/-- **QUIT is the last command.** -/
theorem quit_last {p q : Stage} {before after : List Exchange} {e : Exchange}
    (h : Lts.Runs (Step poco names) p (before ++ e :: after) q) (hline : e.line = NntpPoco.quitLine) :
    after = [] := by
  obtain ⟨_, p', _, hstep, hrest⟩ := h.at_label
  obtain rfl : p' = .finished := by
    rcases hstep.due with hdue | ⟨_, hp'⟩
    · obtain ⟨op, hop⟩ := hdue.operation
      exact absurd (hop.symm.trans hline) (line_ne_quit op)
    · exact hp'
  cases hrest with
  | nil => rfl
  | cons hnext _ => exact absurd hnext not_step_finished

/-- A visit that is over has had its QUIT. -/
theorem quit_of_finished {es : List Exchange} (h : Lts.Runs (Step poco names) .listing es .finished) :
    ∃ es' answer, es = es' ++ [⟨NntpPoco.quitLine, answer⟩] := by
  rcases List.eq_nil_or_concat' es with rfl | ⟨es', e, rfl⟩
  · cases h
  · obtain ⟨_, q, _, hstep, hnil⟩ := h.at_label
    cases hnil
    have hquit : e.line = NntpPoco.quitLine := by
      generalize hq : Stage.finished = q at hstep
      cases hstep with
      | quit => rfl
      | left => rfl
      | selected => exact absurd hq (by unfold Visit.walk; split <;> simp)
      | absent => exact absurd hq (by unfold Visit.walk; split <;> simp)
      | fetched => exact absurd hq (by unfold Visit.walk; split <;> simp)
      | _ => cases hq
    exact ⟨es', e.answer, by rw [← hquit]⟩

/-- An ARTICLE is due only where the walk has come to its number. -/
theorem Due.fetching {p : Stage} {n : UInt32} (h : Due names p (Operation.articleNumber n).line) :
    ∃ v count, p = .fetching v n count := by
  generalize hline : (Operation.articleNumber n).line = line at h
  cases h with
  | list => exact absurd (letter_of_line hline) (by simp [letter, listing])
  | @group v name _ =>
      have hletter : (65 : UInt8) = 71 :=
        letter_of_line (show (Operation.articleNumber n).line = (Operation.selectNewsGroup name).line
          from hline)
      exact absurd hletter (by decide)
  | @stat v number count =>
      have hletter : (65 : UInt8) = 83 :=
        letter_of_line (show (Operation.articleNumber n).line = (Operation.stat number).line
          from hline)
      exact absurd hletter (by decide)
  | @article v number count =>
      obtain rfl := articleNumber_line_injective hline
      exact ⟨v, count, rfl⟩

theorem walk_ne_fetching (v v' : Visit) (number count number' count' : UInt32) :
    v.walk number count ≠ .fetching v' number' count' := by
  unfold Visit.walk
  split <;> simp

/-- The stage in which an ARTICLE is due is entered by the STAT of the same number. -/
theorem Step.fetching {p : Stage} {e : Exchange} {v : Visit} {number count : UInt32}
    (h : Step poco names p e (.fetching v number count)) :
    e.line = (Operation.stat number).line ∧ e.answer.completed = true := by
  generalize hq : Stage.fetching v number count = q at h
  cases h with
  | present hanswer =>
      obtain ⟨rfl, rfl, rfl⟩ := Stage.fetching.inj hq
      exact ⟨rfl, hanswer⟩
  | selected => exact absurd hq.symm (walk_ne_fetching _ _ _ _ _ _)
  | absent => exact absurd hq.symm (walk_ne_fetching _ _ _ _ _ _)
  | fetched => exact absurd hq.symm (walk_ne_fetching _ _ _ _ _ _)
  | _ => cases hq

/-- **ARTICLE comes right behind the accepted STAT of its number.** -/
theorem article_behind_stat {q : Stage} {before after : List Exchange} {e : Exchange} {n : UInt32}
    (h : Lts.Runs (Step poco names) .listing (before ++ e :: after) q)
    (hline : e.line = (Operation.articleNumber n).line) :
    ∃ before' answer, before = before' ++ [⟨(Operation.stat n).line, answer⟩] ∧
      answer.completed = true := by
  obtain ⟨p, _, hbefore, hstep, _⟩ := h.at_label
  have hdue : Due names p e.line := by
    rcases hstep.due with hdue | ⟨hquit, _⟩
    · exact hdue
    · exact absurd (hline.symm.trans hquit) (line_ne_quit _)
  rw [hline] at hdue
  obtain ⟨v, count, rfl⟩ := hdue.fetching
  -- the visit has not begun there, so there was an exchange before
  rcases List.eq_nil_or_concat' before with rfl | ⟨before', ⟨line, answer⟩, rfl⟩
  · cases hbefore
  · obtain ⟨_, _, _, hlast, hnil⟩ := hbefore.at_label
    cases hnil
    obtain ⟨hstat, hanswer⟩ := hlast.fetching
    exact ⟨before', answer, by rw [← show line = _ from hstat], hanswer⟩

/-! ## What has been found -/

/-- The articles found are numbers of the group; unless its last number is the last number of all, they
    are in order, too, and none of them is found twice. -/
structure Visit.Bounded (v : Visit) : Prop where
  le_high : ∀ n ∈ v.found, n ≤ v.group.highArticle
  low_le : v.group.highArticle ≠ 0xFFFFFFFF → ∀ n ∈ v.found, v.group.lowArticle ≤ n
  ordered : v.group.highArticle ≠ 0xFFFFFFFF → v.found.Pairwise (· < ·)

/-- The walk has come to `number`, with `count` articles found so far. -/
structure Visit.At (v : Visit) (number count : UInt32) : Prop extends v.Bounded where
  counted : v.found.length = count.toNat
  few : count.toNat ≤ 10
  low_le_number : v.group.highArticle ≠ 0xFFFFFFFF → v.group.lowArticle ≤ number
  behind : v.group.highArticle ≠ 0xFFFFFFFF → ∀ n ∈ v.found, n < number

/-- What holds of a stage. -/
def Stage.Bounded : Stage → Prop
  | .menu v => v.Bounded ∧ v.found.length ≤ 10
  | .walking v number count => v.At number count ∧ number ≤ v.group.highArticle ∧ count < 10
  | .fetching v number count => v.At number count ∧ number ≤ v.group.highArticle ∧ count < 10
  | _ => True

section Walk

variable {v : Visit} {number count : UInt32}

theorem Visit.At.walk (h : v.At number count) : (v.walk number count).Bounded := by
  unfold Visit.walk
  split
  · exact ⟨h, ‹_›⟩
  · exact ⟨h.toBounded, by rw [h.counted]; exact h.few⟩

/-- A number that is no article. -/
theorem Visit.At.next (h : v.At number count) (hle : number ≤ v.group.highArticle) :
    v.At (number + 1) count := by
  refine ⟨h.toBounded, h.counted, h.few, fun hhigh => ?_, fun hhigh n hn => ?_⟩
  · have hlow := h.low_le_number hhigh
    rw [UInt32.le_iff_toNat_le] at hlow ⊢
    rw [Interval.toNat_succ hle hhigh]
    omega
  · have hlt := h.behind hhigh n hn
    rw [UInt32.lt_iff_toNat_lt] at hlt ⊢
    rw [Interval.toNat_succ hle hhigh]
    omega

/-- A number that is one. -/
theorem Visit.At.found (h : v.At number count) (hle : number ≤ v.group.highArticle)
    (hcount : count < 10) :
    Visit.At ⟨v.group, v.found ++ [number]⟩ (number + 1) (count + 1) := by
  have hten : (10 : UInt32).toNat = 10 := rfl
  have hfew : count.toNat < 10 := by
    rw [UInt32.lt_iff_toNat_lt] at hcount
    omega
  have hsucc : (count + 1).toNat = count.toNat + 1 := by
    rw [UInt32.toNat_add]
    exact Nat.mod_eq_of_lt (by have : (1 : UInt32).toNat = 1 := rfl; omega)
  have hbounded : Visit.Bounded ⟨v.group, v.found ++ [number]⟩ := by
    refine ⟨fun n hn => ?_, fun hhigh n hn => ?_, fun hhigh => ?_⟩
    · rcases List.mem_append.mp hn with hn | hn
      · exact h.le_high n hn
      · rw [List.mem_singleton.mp hn]
        exact hle
    · rcases List.mem_append.mp hn with hn | hn
      · exact h.low_le hhigh n hn
      · rw [List.mem_singleton.mp hn]
        exact h.low_le_number hhigh
    · refine List.pairwise_append.mpr ⟨h.ordered hhigh, List.pairwise_singleton _ _, ?_⟩
      intro n hn m hm
      rw [List.mem_singleton.mp hm]
      exact h.behind hhigh n hn
  refine ⟨hbounded, ?_, by omega, (h.next hle).low_le_number, fun hhigh n hn => ?_⟩
  · rw [List.length_append, h.counted, hsucc]
    rfl
  · rcases List.mem_append.mp hn with hn | hn
    · exact (h.next hle).behind hhigh n hn
    · rw [List.mem_singleton.mp hn, UInt32.lt_iff_toNat_lt, Interval.toNat_succ hle hhigh]
      omega

end Walk

/-- **One exchange** keeps the bounds. -/
theorem Step.bounded {p q : Stage} {e : Exchange} (hp : p.Bounded) (h : Step poco names p e q) :
    q.Bounded := by
  cases h with
  | listed _ => exact ⟨⟨by simp, by simp, by simp⟩, by simp⟩
  | @selected v name code reply g _ _ _ =>
      have hat : Visit.At ⟨g, []⟩ g.lowArticle 0 :=
        ⟨⟨by simp, by simp, by simp⟩, rfl, Nat.zero_le _, fun _ => UInt32.le_refl _, by simp⟩
      exact hat.walk
  | present _ => exact hp
  | absent _ => exact (hp.1.next hp.2.1).walk
  | fetched _ => exact (hp.1.found hp.2.1 hp.2.2).walk
  | _ => trivial

/-- **Whatever the server answers, at most ten articles are found**, all of them numbers of the group. -/
theorem bounded_of_runs {es : List Exchange} {q : Stage}
    (h : Lts.Runs (Step poco names) .listing es q) : q.Bounded := by
  have hlisting : Stage.Bounded .listing := trivial
  exact h.invariant Stage.Bounded (fun _ _ _ hp hstep => hstep.bounded hp) hlisting

end NewsReader

end NntpPoco
