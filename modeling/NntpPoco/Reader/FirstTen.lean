import NntpPoco.Reader.Fetch
import NntpPoco.Session.Store

/-!
# `Reader.FirstTen` — the numbers that are asked for

`Reader.Fetch` says when `getArticles` loads the first ten articles of a group; this module says which
articles it loads from a newsgroup that a server has, whatever its numbers are. The counter of the loop is
followed through `groupNumbers`: up to `highArticle`, or, where that is the last number of all, through
every number there is, and round again as long as ten have not been counted (`Asked`). Where it stops, the
articles that have been found are `Newsgroup.firstTen` (`Asked.stops`). No session is in here: this is what
the loop does to its two variables.
-/

namespace NntpPoco

open Interval

namespace NewsReader

/-! ## The numbers of a group -/

/-- How many numbers of the group there are to ask for. Behind the last number of all the counter goes on
    from 0, so that every number has its turn. -/
def groupLength (g : ActiveNewsGroup) : ℕ :=
  if g.highArticle = 0xFFFFFFFF then 2 ^ 32 else g.highArticle.toNat + 1 - g.lowArticle.toNat

/-- These numbers, in the order in which they are asked for. -/
def groupNumbers (g : ActiveNewsGroup) : List UInt32 := counting g.lowArticle.toNat (groupLength g)

/-- As a rule they are the numbers between the lowest and the highest. -/
theorem groupNumbers_of_ne {g : ActiveNewsGroup} (hhigh : g.highArticle ≠ 0xFFFFFFFF) :
    groupNumbers g = groupInterval g := by
  rw [groupNumbers, groupLength, if_neg hhigh]
  rfl

theorem articlesIn_append (S : UInt32 → Prop) [DecidablePred S] (ns ns' : List UInt32) :
    articlesIn S (ns ++ ns') = articlesIn S ns ++ articlesIn S ns' := List.filter_append ..

end NewsReader

namespace Newsgroup

open NewsReader

/-- **The articles that are loaded.** -/
def firstTen (g : Newsgroup) : List UInt32 := (articlesIn g.Has (groupNumbers g.active)).take 10

/-- The articles among the first `j` numbers that are asked for. -/
def found (g : Newsgroup) (j : ℕ) : List UInt32 := articlesIn g.Has (counting g.lowArticle.toNat j)

theorem firstTen_of_ne {g : Newsgroup} (hhigh : g.highArticle ≠ 0xFFFFFFFF) :
    g.firstTen = (articlesIn g.Has (groupInterval g.active)).take 10 := by
  rw [firstTen, groupNumbers_of_ne hhigh]

theorem has_of_mem_firstTen {g : Newsgroup} {n : UInt32} (h : n ∈ g.firstTen) : g.Has n :=
  of_decide_eq_true (List.mem_filter.mp (List.mem_of_mem_take h)).2

/-- The loop of `getArticles` has asked for `j` numbers and come to the number and the count of `x`. Either
    it is still in the first lap, or there are fewer than ten articles in a whole one. -/
structure Asked (g : Newsgroup) (x : UInt32 × UInt32) (j : ℕ) : Prop where
  number : x.1 = UInt32.ofNat (g.lowArticle.toNat + j)
  count : x.2.toNat = (g.found j).length
  ten : x.2.toNat ≤ 10
  lap : j ≤ groupLength g.active ∨ groupLength g.active ≤ j ∧ g.highArticle = 0xFFFFFFFF ∧
    (articlesIn g.Has (groupNumbers g.active)).length < 10

section Asked

variable {g : Newsgroup} {x : UInt32 × UInt32} {j : ℕ}

theorem Asked.start : g.Asked (g.lowArticle, 0) 0 :=
  ⟨UInt32.ofNat_toNat.symm, rfl, Nat.zero_le 10, Or.inl (Nat.zero_le _)⟩

/-- The count does not wrap around. -/
theorem count_succ {c : UInt32} (hlt : c < 10) : (c + 1).toNat = c.toNat + 1 := by
  have hlt' : c.toNat < 10 := UInt32.lt_iff_toNat_lt.mp hlt
  rw [UInt32.toNat_add, UInt32.toNat_one]
  omega

/-- In the first lap the articles found are the first of all. -/
theorem found_isPrefix (hj : j ≤ groupLength g.active) :
    g.found j <+: articlesIn g.Has (groupNumbers g.active) := by
  obtain ⟨k, hk⟩ := Nat.exists_eq_add_of_le hj
  refine ⟨articlesIn g.Has (counting (g.lowArticle.toNat + j) k), ?_⟩
  rw [found, ← articlesIn_append, counting_append, ← hk]
  rfl

/-- In the first lap of a group with an end the counter does not wrap around. -/
theorem Asked.number_le_iff (h : g.Asked x j) (hne : g.highArticle ≠ 0xFFFFFFFF)
    (hj : j ≤ groupLength g.active) : x.1 ≤ g.highArticle ↔ j < groupLength g.active := by
  have hlength : groupLength g.active = g.highArticle.toNat + 1 - g.lowArticle.toNat := if_neg hne
  have hhigh' : g.highArticle.toNat ≠ 2 ^ 32 - 1 := fun heq => hne (UInt32.toNat_inj.mp heq)
  have hlow := g.lowArticle.toNat_lt
  have hhigh := g.highArticle.toNat_lt
  rw [h.number, ofNat_le_iff (by omega)]
  omega

/-- A counter beyond `highArticle` has gone through all numbers. -/
theorem Asked.beyond (h : g.Asked x j) (hj : j ≤ groupLength g.active) (hlt : ¬ x.1 ≤ g.highArticle) :
    j = groupLength g.active := by
  have hne : g.highArticle ≠ 0xFFFFFFFF := by
    intro heq
    rw [heq, UInt32.le_iff_toNat_le] at hlt
    exact hlt (Nat.le_of_lt_succ x.1.toNat_lt)
  rw [h.number_le_iff hne hj] at hlt
  omega

/-- One that is not has a number more to go through, or goes round again. -/
theorem Asked.more (h : g.Asked x j) (hle : x.1 ≤ g.highArticle) (hlt : x.2 < 10) :
    j + 1 ≤ groupLength g.active ∨ groupLength g.active ≤ j ∧ g.highArticle = 0xFFFFFFFF ∧
      (articlesIn g.Has (groupNumbers g.active)).length < 10 := by
  rcases h.lap with hj | hlap
  · rcases Nat.lt_or_eq_of_le hj with hj' | hj'
    · exact Or.inl hj'
    have hcount : x.2.toNat < 10 := UInt32.lt_iff_toNat_lt.mp hlt
    have hfew : (articlesIn g.Has (groupNumbers g.active)).length < 10 := by
      rw [h.count, hj'] at hcount
      exact hcount
    refine Or.inr ⟨hj'.ge, ?_, hfew⟩
    by_contra hne
    have hmore := (h.number_le_iff hne hj).mp hle
    omega
  · exact Or.inr hlap

theorem Asked.lap_succ (h : g.Asked x j) (hle : x.1 ≤ g.highArticle) (hlt : x.2 < 10) :
    j + 1 ≤ groupLength g.active ∨ groupLength g.active ≤ j + 1 ∧ g.highArticle = 0xFFFFFFFF ∧
      (articlesIn g.Has (groupNumbers g.active)).length < 10 :=
  (h.more hle hlt).imp id fun hlap => ⟨Nat.le_succ_of_le hlap.1, hlap.2⟩

theorem Asked.number_succ (h : g.Asked x j) :
    x.1 + 1 = UInt32.ofNat (g.lowArticle.toNat + (j + 1)) := by
  rw [h.number, ofNat_succ]
  rfl

theorem Asked.found_succ (h : g.Asked x j) :
    g.found (j + 1) = g.found j ++ articlesIn g.Has [x.1] := by
  rw [found, counting_succ, articlesIn_append, ← h.number]
  rfl

/-- A number that is no article is passed. -/
theorem Asked.miss (h : g.Asked x j) (hle : x.1 ≤ g.highArticle) (hlt : x.2 < 10)
    (hmiss : ¬ g.Has x.1) : g.Asked (x.1 + 1, x.2) (j + 1) ∧ g.found (j + 1) = g.found j := by
  have hfound : g.found (j + 1) = g.found j := by
    rw [h.found_succ, articlesIn_miss hmiss]
    exact List.append_nil _
  refine ⟨⟨h.number_succ, ?_, h.ten, h.lap_succ hle hlt⟩, hfound⟩
  rw [hfound]
  exact h.count

/-- An article is counted. -/
theorem Asked.hit (h : g.Asked x j) (hle : x.1 ≤ g.highArticle) (hlt : x.2 < 10) (hhit : g.Has x.1) :
    g.Asked (x.1 + 1, x.2 + 1) (j + 1) ∧ g.found (j + 1) = g.found j ++ [x.1] := by
  have hfound : g.found (j + 1) = g.found j ++ [x.1] := by
    rw [h.found_succ, articlesIn_hit hhit]
    rfl
  have hcount : x.2.toNat < 10 := UInt32.lt_iff_toNat_lt.mp hlt
  have hsucc := count_succ hlt
  refine ⟨⟨h.number_succ, ?_, ?_, h.lap_succ hle hlt⟩, hfound⟩
  · rw [hfound, List.length_append, hsucc, h.count]
    rfl
  · show (x.2 + 1).toNat ≤ 10
    omega

/-- After a whole lap every article has been found. -/
theorem mem_found_of_lap (hj : groupLength g.active ≤ j) (hhigh : g.highArticle = 0xFFFFFFFF)
    {n : UInt32} (hn : g.Has n) : n ∈ g.found j := by
  have hlength : groupLength g.active = 2 ^ 32 := if_pos hhigh
  obtain ⟨k, rfl⟩ := Nat.exists_eq_add_of_le hj
  rw [found, hlength, ← counting_append, articlesIn_append]
  exact List.mem_append_left _ (List.mem_filter.mpr ⟨mem_counting _ n, decide_eq_true hn⟩)

/-- **An article that is asked for** is one of the first ten, and those before it have been found. -/
theorem Asked.splits (h : g.Asked x j) (hle : x.1 ≤ g.highArticle) (hlt : x.2 < 10)
    (hhit : g.Has x.1) : ∃ before after, g.firstTen = before ++ x.1 :: after ∧
      ∀ n ∈ before, n ∈ g.found j := by
  rcases h.more hle hlt with hj | ⟨hlap, hhigh, hfew⟩
  · obtain ⟨hnext, hfound⟩ := h.hit hle hlt hhit
    have hten : (g.found j ++ [x.1]).length ≤ 10 := by
      rw [← hfound, ← hnext.count]
      exact hnext.ten
    have hprefix : g.found j ++ [x.1] <+: g.firstTen := by
      rw [← hfound] at hten ⊢
      exact List.prefix_take_iff.mpr ⟨found_isPrefix hj, hten⟩
    obtain ⟨after, hafter⟩ := hprefix
    refine ⟨g.found j, after, ?_, fun n hn => hn⟩
    rw [← hafter, List.append_assoc, List.singleton_append]
  · -- in a later lap all of them have been found
    have hlength : groupLength g.active = 2 ^ 32 := if_pos hhigh
    have hmem : x.1 ∈ g.firstTen := by
      rw [firstTen, List.take_of_length_le (by omega), groupNumbers, hlength]
      exact List.mem_filter.mpr ⟨mem_counting _ _, decide_eq_true hhit⟩
    obtain ⟨before, after, hsplit⟩ := List.append_of_mem hmem
    refine ⟨before, after, hsplit, fun n hn => mem_found_of_lap hlap hhigh (has_of_mem_firstTen ?_)⟩
    rw [hsplit]
    exact List.mem_append_left _ hn

/-- **Where the loop stops**, the first ten have been found, and no others. -/
theorem Asked.stops (h : g.Asked x j) (hcond : ¬ (x.1 ≤ g.highArticle ∧ x.2 < 10)) (n : UInt32) :
    n ∈ g.found j ↔ n ∈ g.firstTen := by
  rcases h.lap with hj | ⟨hlap, hhigh, hfew⟩
  · have hprefix := found_isPrefix hj
    by_cases hle : x.1 ≤ g.highArticle
    · -- ten have been found
      have hge : 10 ≤ x.2.toNat := by
        by_contra hlt
        exact hcond ⟨hle, UInt32.lt_iff_toNat_lt.mpr (Nat.lt_of_not_le hlt)⟩
      have hten : 10 = (g.found j).length := by
        rw [← h.count]
        exact hge.antisymm h.ten
      rw [firstTen, hten, ← List.prefix_iff_eq_take.mp hprefix]
    · -- no number is left
      have hall : g.found j = articlesIn g.Has (groupNumbers g.active) := by
        rw [h.beyond hj hle]
        rfl
      have hten : (articlesIn g.Has (groupNumbers g.active)).length ≤ 10 := by
        rw [← hall, ← h.count]
        exact h.ten
      rw [hall, firstTen, List.take_of_length_le hten]
  · have hlength : groupLength g.active = 2 ^ 32 := if_pos hhigh
    constructor
    · intro hn
      rw [firstTen, List.take_of_length_le (by omega), groupNumbers, hlength]
      exact List.mem_filter.mpr ⟨mem_counting _ _, (List.mem_filter.mp hn).2⟩
    · exact fun hn => mem_found_of_lap hlap hhigh (has_of_mem_firstTen hn)

end Asked

/-! ## The end of the loop -/

/-- What is left to do where `n` is an article: for each article that is still to be counted a lap, and the
    way to `n`. -/
def remaining (n : UInt32) (x : UInt32 × UInt32) : ℕ := (10 - x.2.toNat) * 2 ^ 32 + (n - x.1).toNat

section Remaining

variable {n m c : UInt32}

theorem remaining_miss (hne : m ≠ n) : remaining n (m + 1, c) < remaining n (m, c) := by
  have hway : (n - (m + 1)).toNat + 1 = (n - m).toNat := by
    have hn := n.toNat_lt
    have hm := m.toNat_lt
    have hne' : m.toNat ≠ n.toNat := fun h => hne (UInt32.toNat_inj.mp h)
    rw [UInt32.toNat_sub, UInt32.toNat_sub, UInt32.toNat_add, UInt32.toNat_one]
    omega
  simp only [remaining]
  omega

theorem remaining_hit (hlt : c < 10) : remaining n (m + 1, c + 1) < remaining n (m, c) := by
  have hcount : c.toNat < 10 := UInt32.lt_iff_toNat_lt.mp hlt
  have hsucc := count_succ hlt
  have hway := (n - (m + 1)).toNat_lt
  simp only [remaining]
  omega

end Remaining

end Newsgroup

end NntpPoco
