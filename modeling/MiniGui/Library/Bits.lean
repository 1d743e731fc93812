import Mathlib

namespace Bits

variable {w : Nat}

def has (m : BitVec w) (k : Nat) : Bool :=
  (m &&& (1#w <<< k)) != 0#w

def set (m : BitVec w) (k : Nat) : BitVec w :=
  m ||| (1#w <<< k)

def clear (m : BitVec w) (k : Nat) : BitVec w :=
  m &&& ~~~(1#w <<< k)

theorem getLsbD_one_shiftLeft (k i : Nat)
    : (1#w <<< k).getLsbD i = (decide (i < w) && decide (i = k)) := by
  rw [← BitVec.twoPow_eq, BitVec.getLsbD_twoPow]
  grind

theorem has_eq_getLsbD (m : BitVec w) (k : Nat) : has m k = m.getLsbD k := by
  unfold has
  rw [← BitVec.twoPow_eq, BitVec.and_twoPow]
  split
  . next h =>
    have hk : k < w := BitVec.lt_of_getLsbD h
    have hne : BitVec.twoPow w k ≠ 0#w := by
      intro heq
      have := congrArg (fun b : BitVec w => b.getLsbD k) heq
      simp [hk] at this
    simp [h, hne]
  . next h => simp [h]

theorem lt_of_has {m : BitVec w} {k : Nat} (h : has m k = true) : k < w := by
  rw [has_eq_getLsbD] at h
  exact BitVec.lt_of_getLsbD h

@[simp]
theorem has_zero (k : Nat) : has (0#w) k = false := by
  simp [has_eq_getLsbD]

@[simp]
theorem has_set (m : BitVec w) (j k : Nat)
    : has (set m j) k = (has m k || (decide (k < w) && decide (k = j))) := by
  rw [has_eq_getLsbD, has_eq_getLsbD, set, BitVec.getLsbD_or, getLsbD_one_shiftLeft]

@[simp]
theorem has_clear (m : BitVec w) (j k : Nat) : has (clear m j) k = (has m k && decide (k ≠ j)) := by
  rw [has_eq_getLsbD, has_eq_getLsbD, clear, BitVec.getLsbD_and, BitVec.getLsbD_not,
    getLsbD_one_shiftLeft]
  by_cases hk : k < w
  . by_cases hj : k = j <;> simp [hk, hj]
  . simp [BitVec.getLsbD_of_ge _ _ (not_lt.mp hk)]

theorem ext {m n : BitVec w} (h : ∀ k, has m k = has n k) : m = n := by
  apply BitVec.eq_of_getLsbD_eq
  intro i hi
  rw [← has_eq_getLsbD, ← has_eq_getLsbD]
  exact h i

theorem eq_zero_iff {m : BitVec w} : m = 0#w ↔ ∀ k, has m k = false := by
  constructor
  . intro h k
    simp [h]
  . intro h
    apply ext
    simp [h]

theorem exists_has_of_ne_zero {m : BitVec w} (h : m ≠ 0#w) : ∃ k, k < w ∧ has m k = true := by
  rw [Ne, eq_zero_iff, not_forall] at h
  rcases h with ⟨k, hk⟩
  rw [Bool.not_eq_false] at hk
  exact ⟨k, lt_of_has hk, hk⟩

end Bits
