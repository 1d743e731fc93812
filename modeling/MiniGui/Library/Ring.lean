import Mathlib

namespace Ring

def slots (len r w : Nat) : List Nat :=
  (List.range ((w + len - r) % len)).map (fun i => (r + i) % len)

variable {len r w : Nat}

@[simp]
theorem length_slots : (slots len r w).length = (w + len - r) % len := by
  simp [slots]

@[simp]
theorem slots_self : slots len r r = [] := by
  simp [slots]

variable (hr : r < len)
include hr

theorem length_slots_lt : (slots len r w).length < len := by
  rw [length_slots]
  apply Nat.mod_lt
  omega

theorem distance_eq (hw : w < len)
    : (w + len - r) % len = if r ≤ w then w - r else w + len - r := by
  split
  . have : w + len - r = (w - r) + len := by omega
    rw [this, Nat.add_mod_right]
    apply Nat.mod_eq_of_lt
    omega
  . apply Nat.mod_eq_of_lt
    omega

theorem succ_mod : (r + 1) % len = if r + 1 = len then 0 else r + 1 := by
  split
  . next h => rw [h, Nat.mod_self]
  . apply Nat.mod_eq_of_lt
    omega

variable (hw : w < len)
include hw

theorem slots_eq_nil_iff : slots len r w = [] ↔ r = w := by
  rw [← List.length_eq_zero_iff, length_slots, distance_eq hr hw]
  split <;> omega

theorem slots_cons (hne : r ≠ w) : slots len r w = r :: slots len ((r + 1) % len) w := by
  have hr' : (r + 1) % len < len := by
    apply Nat.mod_lt
    omega
  have hlen : (w + len - r) % len = (w + len - (r + 1) % len) % len + 1 := by
    rw [distance_eq hr hw, distance_eq hr' hw, succ_mod hr]
    split <;> split <;> split <;> omega
  simp only [slots]
  rw [hlen, List.range_succ_eq_map, List.map_cons, List.map_map]
  congr 1
  . rw [Nat.add_zero]
    apply Nat.mod_eq_of_lt hr
  apply List.map_congr_left
  intro i _
  simp only [Function.comp_apply, Nat.succ_eq_add_one]
  rw [Nat.mod_add_mod]
  congr 1
  omega

theorem slots_concat (hfull : (w + 1) % len ≠ r)
    : slots len r ((w + 1) % len) = slots len r w ++ [w] := by
  have hw' : (w + 1) % len < len := by
    apply Nat.mod_lt
    omega
  have hlen : ((w + 1) % len + len - r) % len = (w + len - r) % len + 1 := by
    rw [succ_mod hw] at hw' hfull ⊢
    rw [distance_eq hr hw', distance_eq hr hw]
    split_ifs at hfull ⊢ <;> omega
  simp only [slots]
  rw [hlen, List.range_succ, List.map_append, List.map_singleton]
  congr 2
  rw [distance_eq hr hw]
  split
  . have : r + (w - r) = w := by omega
    rw [this]
    apply Nat.mod_eq_of_lt hw
  . have : r + (w + len - r) = w + len := by omega
    rw [this, Nat.add_mod_right]
    apply Nat.mod_eq_of_lt hw

theorem full_iff : (w + 1) % len = r ↔ (slots len r w).length = len - 1 := by
  rw [length_slots, distance_eq hr hw, succ_mod hw]
  split <;> split <;> omega

theorem write_not_mem : w ∉ slots len r w := by
  intro h
  simp only [slots, List.mem_map, List.mem_range] at h
  rcases h with ⟨i, hi, hiw⟩
  rw [distance_eq hr hw] at hi
  by_cases hlt : r + i < len
  . rw [Nat.mod_eq_of_lt hlt] at hiw
    split at hi <;> omega
  have : (r + i) % len = r + i - len := by
    rw [Nat.mod_eq_sub_mod (not_lt.mp hlt)]
    apply Nat.mod_eq_of_lt
    split at hi <;> omega
  rw [this] at hiw
  split at hi <;> omega

theorem nodup_slots : (slots len r w).Nodup := by
  apply List.Nodup.map_on _ List.nodup_range
  intro i hi j hj hij
  rw [List.mem_range, distance_eq hr hw] at hi hj
  have hi' : i < len := by split at hi <;> omega
  have hj' : j < len := by split at hj <;> omega
  have := Nat.ModEq.add_left_cancel' r hij
  exact Nat.ModEq.eq_of_lt_of_lt this hi' hj'

end Ring
