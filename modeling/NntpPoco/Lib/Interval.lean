import Mathlib.Algebra.Group.Nat.Defs
import Mathlib.Data.List.Range
import Mathlib.Data.List.Perm.Subperm
import Mathlib.Tactic.Common

/-!
# `Lib.Interval` — the numbers a counter of 32 bits goes through

A counter that starts at `m` and is incremented while it is at most `high` goes through
`interval m high`. It is given by a natural number, so that the place behind the last number of all,
where the counter itself is back at 0, is not the place it started from. A counter that is not held up
goes through `counting m k`.
-/

namespace Interval

/-- The numbers from `m` up to `high`, in increasing order. -/
def interval (m : ℕ) (high : UInt32) : List UInt32 :=
  (List.range' m (high.toNat + 1 - m)).map UInt32.ofNat

/-- The `k` numbers from `m` on, with 0 behind the last number of all. -/
def counting (m k : ℕ) : List UInt32 := (List.range' m k).map UInt32.ofNat

variable {m : ℕ} {high n : UInt32}

theorem toNat_ofNat_of_lt (h : m < 2 ^ 32) : (UInt32.ofNat m).toNat = m :=
  UInt32.toNat_ofNat_of_lt' h

theorem ofNat_le_iff (h : m < 2 ^ 32) : UInt32.ofNat m ≤ high ↔ m ≤ high.toNat := by
  rw [UInt32.le_iff_toNat_le, toNat_ofNat_of_lt h]

/-- The increment, wherever it leads. -/
theorem ofNat_succ (m : ℕ) : UInt32.ofNat m + 1 = UInt32.ofNat (m + 1) := by
  rw [UInt32.ofNat_add]
  rfl

/-- The increment below a number that is not the last of all. -/
theorem toNat_succ (hle : n ≤ high) (hhigh : high ≠ 0xFFFFFFFF) : (n + 1).toNat = n.toNat + 1 := by
  have hne : high.toNat ≠ (0xFFFFFFFF : UInt32).toNat := fun h => hhigh (UInt32.toNat_inj.mp h)
  have hmax : (0xFFFFFFFF : UInt32).toNat = 2 ^ 32 - 1 := rfl
  have hone : (1 : UInt32).toNat = 1 := rfl
  have hlt := high.toNat_lt
  rw [UInt32.le_iff_toNat_le] at hle
  rw [UInt32.toNat_add]
  exact Nat.mod_eq_of_lt (by omega)

/-- The place behind the last number of all. -/
theorem ofNat_wrap : UInt32.ofNat (2 ^ 32) = 0 := rfl

theorem length_interval : (interval m high).length = high.toNat + 1 - m := by
  simp [interval]

theorem interval_eq_nil (h : high.toNat < m) : interval m high = [] := by
  have hzero : high.toNat + 1 - m = 0 := by omega
  simp [interval, hzero]

theorem interval_cons (h : m ≤ high.toNat) :
    interval m high = UInt32.ofNat m :: interval (m + 1) high := by
  obtain ⟨d, hd⟩ : ∃ d, high.toNat + 1 - m = d + 1 := ⟨high.toNat - m, by omega⟩
  have hd' : high.toNat + 1 - (m + 1) = d := by omega
  rw [interval, interval, hd, hd', List.range'_succ, List.map_cons]

theorem mem_interval : n ∈ interval m high ↔ m ≤ n.toNat ∧ n ≤ high := by
  have hhigh := high.toNat_lt
  rw [UInt32.le_iff_toNat_le, interval, List.mem_map]
  constructor
  · rintro ⟨j, hj, rfl⟩
    have hj := List.mem_range'_1.mp hj
    rw [toNat_ofNat_of_lt (by omega)]
    omega
  · rintro ⟨hm, hn⟩
    exact ⟨n.toNat, List.mem_range'_1.mpr (by omega), UInt32.ofNat_toNat⟩

theorem pairwise_interval (m : ℕ) (high : UInt32) : (interval m high).Pairwise (· < ·) := by
  have hhigh := high.toNat_lt
  refine List.pairwise_map.mpr (List.Pairwise.imp_of_mem ?_ List.pairwise_lt_range')
  intro i j hi hj hij
  have hi := List.mem_range'_1.mp hi
  have hj := List.mem_range'_1.mp hj
  rw [UInt32.lt_iff_toNat_lt, toNat_ofNat_of_lt (by omega), toNat_ofNat_of_lt (by omega)]
  exact hij

/-- Increasing numbers of an interval are no more than it has. -/
theorem length_le_of_pairwise {ns : List UInt32} (hns : ns.Pairwise (· < ·))
    (hmem : ∀ n ∈ ns, n ∈ interval m high) : ns.length ≤ high.toNat + 1 - m := by
  have hnodup : ns.Nodup := hns.imp fun h => UInt32.ne_of_lt h
  rw [← length_interval]
  exact (List.Nodup.subperm hnodup hmem).length_le

theorem counting_append (m j k : ℕ) : counting m j ++ counting (m + j) k = counting m (j + k) := by
  rw [counting, counting, ← List.map_append, List.range'_append_1]
  rfl

theorem counting_succ (m k : ℕ) : counting m (k + 1) = counting m k ++ [UInt32.ofNat (m + k)] :=
  (counting_append m k 1).symm

/-- In a whole lap every number has its turn. -/
theorem mem_counting (m : ℕ) (n : UInt32) : n ∈ counting m (2 ^ 32) := by
  have hn := n.toNat_lt
  -- how far it is from `m` to the next number that is `n`
  obtain ⟨k, hk, hmod⟩ : ∃ k < 2 ^ 32, (m + k) % 2 ^ 32 = n.toNat :=
    ⟨(n.toNat + (2 ^ 32 - m % 2 ^ 32)) % 2 ^ 32, Nat.mod_lt _ (by omega), by omega⟩
  refine List.mem_map.mpr ⟨m + k, List.mem_range'_1.mpr (by omega), ?_⟩
  apply UInt32.toNat_inj.mp
  rw [UInt32.toNat_ofNat', hmod]

end Interval
