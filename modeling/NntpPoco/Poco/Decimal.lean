import Mathlib.Data.Nat.Basic
import NntpPoco.Poco.Laws

/-!
# `Poco.Decimal` — numbers printed and read back

The numbers of a command line, of a menu and of a GROUP reply are decimal. `decimal_ofNat` is the round
trip from `std::to_string` through `NumberParser`, so two numbers are printed alike only if they are the
same (`ofUInt_injective`), and a user who types the number a menu shows names that number.
-/

namespace NntpPoco

open Lines

/-! ## Digits -/

/-- A digit keeps its code as a byte. -/
theorem digit_toNat {c : Char} (h : c.isDigit = true) : c.toNat.toUInt8.toNat = c.toNat := by
  have hle : c.toNat ≤ 57 := by
    simp only [Char.isDigit, Bool.and_eq_true, decide_eq_true_eq] at h
    exact h.2
  have hlt : c.toNat < 2 ^ 8 := by omega
  show c.toNat % 2 ^ 8 = c.toNat
  exact Nat.mod_eq_of_lt hlt

theorem isDigit_of_char {c : Char} (h : c.isDigit = true) : isDigit c.toNat.toUInt8 = true := by
  have hbounds : 48 ≤ c.toNat ∧ c.toNat ≤ 57 := by
    simp only [Char.isDigit, Bool.and_eq_true, decide_eq_true_eq] at h
    exact h
  have hval := digit_toNat h
  simp only [isDigit, Bool.and_eq_true, decide_eq_true_eq, UInt8.le_iff_toNat_le, hval]
  exact hbounds

/-- A fold over the bytes of digits is the fold over the digits. -/
theorem foldl_digits (cs : List Char) (h : ∀ c ∈ cs, c.isDigit = true) (n : ℕ) :
    (cs.map fun c => c.toNat.toUInt8).foldl (fun n b => 10 * n + (b.toNat - 48)) n =
      Nat.ofDigitChars 10 cs n := by
  induction cs generalizing n with
  | nil => rfl
  | cons c cs ih =>
      obtain ⟨hc, hcs⟩ := List.forall_mem_cons.mp h
      rw [Nat.ofDigitChars_cons, List.map_cons, List.foldl_cons, ih hcs, digit_toNat hc]
      rfl

/-! ## The round trip -/

theorem isDigit_toDigits (n : ℕ) : ∀ c ∈ Nat.toDigits 10 n, c.isDigit = true :=
  fun _ hc => Nat.isDigit_of_mem_toDigits (by omega) (by omega) hc

/-- **A number printed and read is the number.** -/
@[simp] theorem decimal_ofNat (n : ℕ) : Poco.decimal (Bytes.ofNat n) = n := by
  rw [Poco.decimal, Bytes.ofNat, foldl_digits _ (isDigit_toDigits n)]
  exact Nat.ofDigitChars_ten_toDigits

theorem isDecimal_ofNat (n : ℕ) : Poco.IsDecimal (Bytes.ofNat n) := by
  constructor
  · simp [Bytes.ofNat]
  · rw [Bytes.ofNat, List.all_map, List.all_eq_true]
    intro c hc
    exact isDigit_of_char (isDigit_toDigits n c hc)

/-- Printed numbers have no line end and no blank in them. -/
theorem not_mem_ofNat {b : UInt8} (hb : isDigit b = false) (n : ℕ) : b ∉ Bytes.ofNat n := by
  intro hmem
  have hdigit := List.all_eq_true.mp (isDecimal_ofNat n).2 b hmem
  exact absurd (hb.symm.trans hdigit) (by simp)

theorem breakFree_ofUInt (n : UInt32) : BreakFree (Bytes.ofUInt n) :=
  ⟨not_mem_ofNat (by decide) _, not_mem_ofNat (by decide) _⟩

theorem ofUInt_injective {m n : UInt32} (h : Bytes.ofUInt m = Bytes.ofUInt n) : m = n := by
  have hdecimal := congrArg Poco.decimal h
  rw [Bytes.ofUInt, Bytes.ofUInt, decimal_ofNat, decimal_ofNat] at hdecimal
  exact UInt32.toNat_inj.mp hdecimal

/-- `NumberParser::parseUnsigned` reads what `std::to_string` has printed. -/
theorem parseUnsigned_ofUInt {π μ α : Type} {poco : Poco π μ α} (hparses : poco.ParsesUnsigned)
    (n : UInt32) : poco.parseUnsigned (Bytes.ofUInt n) = .ok n := by
  have hlt : Poco.decimal (Bytes.ofNat n.toNat) < 2 ^ 32 := by
    rw [decimal_ofNat]
    exact n.toNat_lt
  rw [Bytes.ofUInt, hparses.small _ (isDecimal_ofNat _) hlt, decimal_ofNat, UInt32.ofNat_toNat]

/-- `NumberParser::parse` reads it as well. -/
theorem parse_ofNat {π μ α : Type} {poco : Poco π μ α} (hparses : poco.ParsesDecimal) {n : ℕ}
    (hn : n < 2 ^ 31) : poco.parse (Bytes.ofNat n) = .ok n := by
  have hparse := hparses (Bytes.ofNat n) (isDecimal_ofNat n) (by rwa [decimal_ofNat])
  rwa [decimal_ofNat] at hparse

/-- Nobody quits by a number. -/
theorem ofNat_ne_q (n : ℕ) : Bytes.ofNat n ≠ text "q" := by
  intro hq
  have hdecimal := isDecimal_ofNat n
  rw [hq] at hdecimal
  exact absurd hdecimal (by decide)

end NntpPoco
