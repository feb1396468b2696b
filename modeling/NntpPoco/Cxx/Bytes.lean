import Mathlib.Algebra.Group.Int.Defs
import Mathlib.Algebra.Group.Nat.Defs
import Mathlib.Data.List.Basic
import Mathlib.Tactic.Common
import NntpPoco.Lib.Lines

/-!
# `Cxx.Bytes` — `std::string` and the exceptions

A `std::string` is a list of bytes; `std::string::npos` is `none`. Only the members the code calls are
here, each with the meaning the standard gives it.
-/

namespace NntpPoco

/-- A `std::string`. -/
abbrev Bytes := List UInt8

instance : LineSyntax UInt8 where
  cr := 13
  lf := 10
  dot := 46
  cr_ne_lf := by decide
  dot_ne_cr := by decide
  dot_ne_lf := by decide

/-- A string literal. -/
def text (s : String) : Bytes := s.toList.map fun c => c.toNat.toUInt8

/-- What a call can leave by instead of returning. -/
inductive Exception
  /-- `NNTPException(msg, arg, code)` -/
  | nntp (msg : String) (arg : Bytes) (code : Int)
  /-- a `NetException`, `TimeoutException` or `IOException` of the socket -/
  | net (code : ℕ)
  /-- `SyntaxException` of `NumberParser` -/
  | notANumber (arg : Bytes)
  /-- `RangeException` of `StringTokenizer::operator[]` -/
  | range
  /-- `std::out_of_range` of `substr` -/
  | outOfRange
  /-- whatever `NewsArticle::read` throws on a malformed article -/
  | malformed (code : ℕ)
  /-- not an exception: the run has reached undefined behaviour and has no meaning from here on -/
  | undefined
  deriving DecidableEq, Repr

namespace Bytes

/-- `s.find_first_of(chars, pos)`. -/
def findFirstOf (s chars : Bytes) (pos : ℕ) : Option ℕ :=
  ((s.drop pos).findIdx? fun b => decide (b ∈ chars)).map (· + pos)

/-- `s.find_first_not_of(chars, pos)`. -/
def findFirstNotOf (s chars : Bytes) (pos : ℕ) : Option ℕ :=
  ((s.drop pos).findIdx? fun b => decide (b ∉ chars)).map (· + pos)

/-- The first place where `pat` starts in a string. -/
def findSub (pat : Bytes) : Bytes → Option ℕ
  | [] => if pat = [] then some 0 else none
  | x :: xs => if pat.isPrefixOf (x :: xs) then some 0 else (findSub pat xs).map (· + 1)

/-- `npos` is what a search gives where the pattern occurs nowhere, -/
theorem findSub_eq_none_iff {pat s : Bytes} : findSub pat s = none ↔ ¬ pat <:+: s := by
  induction s with
  | nil =>
      rw [List.infix_nil]
      by_cases hpat : pat = [] <;> simp [findSub, hpat]
  | cons x xs ih =>
      rw [List.infix_cons_iff, not_or, ← ih, findSub]
      by_cases hbegins : pat <+: x :: xs
      · simp [hbegins]
      · simp [hbegins]

/-- and else the first place where it does. -/
theorem exists_of_findSub {pat s : Bytes} {k : ℕ} (hpat : pat ≠ []) (h : findSub pat s = some k) :
    ∃ l rest, s = l ++ (pat ++ rest) ∧ l.length = k ∧ ¬ pat <:+: l := by
  induction s generalizing k with
  | nil => simp [findSub, hpat] at h
  | cons x xs ih =>
      rw [findSub] at h
      by_cases hbegins : pat <+: x :: xs
      · rw [if_pos (List.isPrefixOf_iff_prefix.mpr hbegins)] at h
        obtain ⟨rest, hrest⟩ := hbegins
        exact ⟨[], rest, hrest.symm, Option.some.inj h, by simpa using hpat⟩
      · rw [if_neg (mt List.isPrefixOf_iff_prefix.mp hbegins)] at h
        obtain ⟨k', hk', rfl⟩ := Option.map_eq_some_iff.mp h
        obtain ⟨l, rest, rfl, rfl, hl⟩ := ih hk'
        refine ⟨x :: l, rest, rfl, rfl, fun hoccurs => ?_⟩
        rcases List.infix_cons_iff.mp hoccurs with hx | hoccurs
        · exact hbegins (hx.trans (List.prefix_append (x :: l) _))
        · exact hl hoccurs

/-- `s.find(pat, pos)`. -/
def find (s pat : Bytes) (pos : ℕ) : Option ℕ :=
  if pos ≤ s.length then (findSub pat (s.drop pos)).map (· + pos) else none

/-- `s.substr(pos)`: throws when `pos` is past the end, as `npos` always is. -/
def substrFrom (s : Bytes) : Option ℕ → Except Exception Bytes
  | some pos => if pos ≤ s.length then .ok (s.drop pos) else .error .outOfRange
  | none => .error .outOfRange

/-- `s.substr(pos, count)`. -/
def substr (s : Bytes) (pos count : ℕ) : Except Exception Bytes :=
  if pos ≤ s.length then .ok ((s.drop pos).take count) else .error .outOfRange

/-- `std::to_string` of a number that is not negative. -/
def ofNat (n : ℕ) : Bytes := (Nat.toDigits 10 n).map fun c => c.toNat.toUInt8

def ofUInt (n : UInt32) : Bytes := ofNat n.toNat

/-- `std::setw(width) << std::setfill(' ') << s`. -/
def setw (width : ℕ) (s : Bytes) : Bytes := List.replicate (width - s.length) 32 ++ s

end Bytes

/-- `std::max_element` by size: the first of the largest, `none` for `end()`. -/
def maxElement {β : Type} (size : β → ℕ) : List β → Option β
  | [] => none
  | x :: xs => some (xs.foldl (fun m y => if size m < size y then y else m) x)

/-- `end()` is what it gives for an empty range, and only then. -/
theorem maxElement_eq_none_iff {β : Type} {size : β → ℕ} {l : List β} :
    maxElement size l = none ↔ l = [] := by
  cases l <;> simp [maxElement]

/-- The larger of two at each place: nothing is larger than the last. -/
theorem le_foldl_larger {β : Type} {size : β → ℕ} (xs : List β) (y : β) :
    ∀ x ∈ y :: xs, size x ≤ size (xs.foldl (fun m y => if size m < size y then y else m) y) := by
  induction xs generalizing y with
  | nil => exact List.forall_mem_singleton.mpr (Nat.le_refl _)
  | cons z xs ih =>
      obtain ⟨hlarger, hrest⟩ := List.forall_mem_cons.mp (ih (if size y < size z then z else y))
      have hboth : size y ≤ size (if size y < size z then z else y) ∧
          size z ≤ size (if size y < size z then z else y) := by
        split <;> omega
      refine List.forall_mem_cons.mpr ⟨Nat.le_trans hboth.1 hlarger, ?_⟩
      exact List.forall_mem_cons.mpr ⟨Nat.le_trans hboth.2 hlarger, hrest⟩

/-- No element is larger than the one it gives. -/
theorem le_of_maxElement {β : Type} {size : β → ℕ} {l : List β} {m : β}
    (h : maxElement size l = some m) : ∀ x ∈ l, size x ≤ size m := by
  cases l with
  | nil => exact absurd h (by simp [maxElement])
  | cons y xs =>
      obtain rfl := Option.some.inj h
      exact le_foldl_larger xs y

end NntpPoco
