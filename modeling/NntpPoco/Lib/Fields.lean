import Mathlib.Data.List.Basic
import Mathlib.Data.List.TakeWhile
import Mathlib.Tactic.Common

/-!
# `Lib.Fields` — lines of two fields

A line over any alphabet, cut at its first run of separators: `first` is what stands before the run
and `second` what follows it. Joining two fields with a run of separators and cutting again gives them
back (`first_join`, `second_join`).

A program that looks for the fields by position, first for a separator and then for a letter that is
none, finds them (`first_of_findIdx`, `second_of_findIdx`), except in a line that ends inside its first
run of separators (`Dangling`): there is no such letter.
-/

namespace Fields

variable {α : Type} {sep : α → Bool}

/-- The longest initial part without a separator. -/
def first (sep : α → Bool) (l : List α) : List α := l.takeWhile fun x => !sep x

/-- What follows the first run of separators. -/
def second (sep : α → Bool) (l : List α) : List α := (l.dropWhile fun x => !sep x).dropWhile sep

/-- The line ends inside its first run of separators. -/
def Dangling (sep : α → Bool) (l : List α) : Prop := (∃ x ∈ l, sep x = true) ∧ second sep l = []

instance (l : List α) : Decidable (Dangling sep l) :=
  @instDecidableAnd _ _ inferInstance (decidable_of_iff (second sep l).isEmpty List.isEmpty_iff)

/-! ## Joining -/

section Join

variable {name run description : List α}

/-- What stands before the first separator is dropped. -/
theorem dropWhile_join (hname : ∀ x ∈ name, sep x = false) (hrun : run ≠ [])
    (hsep : ∀ x ∈ run, sep x = true) :
    (name ++ (run ++ description)).dropWhile (fun x => !sep x) = run ++ description := by
  rw [List.dropWhile_append_of_pos (by simpa using hname)]
  cases run with
  | nil => exact absurd rfl hrun
  | cons x run => simp [hsep x List.mem_cons_self]

theorem first_join (hname : ∀ x ∈ name, sep x = false) (hrun : run ≠ [])
    (hsep : ∀ x ∈ run, sep x = true) : first sep (name ++ (run ++ description)) = name := by
  rw [first, List.takeWhile_append_of_pos (by simpa using hname)]
  cases run with
  | nil => exact absurd rfl hrun
  | cons x run => simp [hsep x List.mem_cons_self]

theorem second_join (hname : ∀ x ∈ name, sep x = false) (hrun : run ≠ [])
    (hsep : ∀ x ∈ run, sep x = true) (hdescription : ∀ x ∈ description.head?, sep x = false) :
    second sep (name ++ (run ++ description)) = description := by
  rw [second, dropWhile_join hname hrun hsep, List.dropWhile_append_of_pos hsep]
  cases description with
  | nil => rfl
  | cons x description => simp [hdescription x rfl]

/-- A joined line ends inside its separators exactly when nothing was joined behind them. -/
theorem dangling_join (hname : ∀ x ∈ name, sep x = false) (hrun : run ≠ [])
    (hsep : ∀ x ∈ run, sep x = true) (hdescription : ∀ x ∈ description.head?, sep x = false) :
    Dangling sep (name ++ (run ++ description)) ↔ description = [] := by
  rw [Dangling, second_join hname hrun hsep hdescription]
  constructor
  · exact And.right
  · intro hempty
    obtain ⟨x, hx⟩ := List.exists_mem_of_ne_nil run hrun
    exact ⟨⟨x, by simp [hx], hsep x hx⟩, hempty⟩

end Join

/-! ## Searching -/

section Search

variable {l : List α} {i j : ℕ}

/-- Without a separator the line is its first field. -/
theorem fields_of_findIdx_none (h : l.findIdx? sep = none) :
    first sep l = l ∧ second sep l = [] ∧ ¬ Dangling sep l := by
  have hnone : ∀ x ∈ l, sep x = false := List.findIdx?_eq_none_iff.mp h
  refine ⟨?_, ?_, ?_⟩
  · exact List.takeWhile_eq_self_iff.mpr (by simpa using hnone)
  · have hdrop : l.dropWhile (fun x => !sep x) = [] :=
      List.dropWhile_eq_nil_iff.mpr (by simpa using hnone)
    rw [second, hdrop]
    rfl
  · rintro ⟨⟨x, hx, hsep⟩, _⟩
    rw [hnone x hx] at hsep
    exact absurd hsep (by simp)

/-- The first field ends where the first separator is found. -/
theorem first_of_findIdx (h : l.findIdx? sep = some i) : first sep l = l.take i := by
  rw [first, List.takeWhile_eq_take_findIdx_not]
  simp only [Bool.not_not]
  rw [(List.findIdx?_eq_some_iff_findIdx_eq.mp h).2]

/-- The separator found is the first letter of the run. -/
theorem second_eq_dropWhile (h : l.findIdx? sep = some i) :
    second sep l = (l.drop (i + 1)).dropWhile sep := by
  obtain ⟨hlt, hidx⟩ := List.findIdx?_eq_some_iff_findIdx_eq.mp h
  obtain ⟨_, hsep, _⟩ := List.findIdx?_eq_some_iff_getElem.mp h
  have hdrop : l.dropWhile (fun x => !sep x) = l.drop i := by
    rw [List.dropWhile_eq_drop_findIdx_not]
    simp only [Bool.not_not]
    rw [hidx]
  rw [second, hdrop, List.drop_eq_getElem_cons hlt, List.dropWhile_cons_of_pos hsep]

/-- The second field begins at the first letter behind it that is no separator. -/
theorem second_of_findIdx (h : l.findIdx? sep = some i)
    (hnext : (l.drop (i + 1)).findIdx? (fun x => !sep x) = some j) :
    second sep l = l.drop (j + (i + 1)) ∧ ¬ Dangling sep l := by
  obtain ⟨hlt, hidx⟩ := List.findIdx?_eq_some_iff_findIdx_eq.mp hnext
  have hsecond : second sep l = (l.drop (i + 1)).drop j := by
    rw [second_eq_dropWhile h, List.dropWhile_eq_drop_findIdx_not, hidx]
  refine ⟨?_, ?_⟩
  · rw [hsecond, List.drop_drop, Nat.add_comm]
  · rintro ⟨_, hnil⟩
    rw [hsecond, List.drop_eq_nil_iff] at hnil
    omega

/-- Where there is no such letter, the line ends inside the run. -/
theorem dangling_of_findIdx (h : l.findIdx? sep = some i)
    (hnext : (l.drop (i + 1)).findIdx? (fun x => !sep x) = none) : Dangling sep l := by
  refine ⟨?_, ?_⟩
  · obtain ⟨hlt, hsep, _⟩ := List.findIdx?_eq_some_iff_getElem.mp h
    exact ⟨l[i], List.getElem_mem hlt, hsep⟩
  · rw [second_eq_dropWhile h]
    apply List.dropWhile_eq_nil_iff.mpr
    simpa using List.findIdx?_eq_none_iff.mp hnext

end Search

end Fields
