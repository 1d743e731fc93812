import Mathlib

namespace LockTrace

open Function List Option

inductive Op (L : Type) where
  | acquire (l : L)
  | release (l : L)
deriving DecidableEq, Repr

variable {L : Type} [DecidableEq L] {ops ops' : List (Op L)} {l : L} {held held' : L → Nat}

def step (held : L → Nat) : Op L → Option (L → Nat)
  | .acquire l => some (Function.update held l (held l + 1))
  | .release l => if held l = 0 then none else some (Function.update held l (held l - 1))

def run : List (Op L) → (L → Nat) → Option (L → Nat)
  | [], held => some held
  | op :: ops, held => (step held op).bind (run ops)

def Balanced (ops : List (Op L)) : Prop :=
  run ops (fun _ => 0) = some fun _ => 0

theorem run_append (ops ops' : List (Op L)) (held : L → Nat)
    : run (ops ++ ops') held = (run ops held).bind (run ops') := by
  induction ops generalizing held with
  | nil => rfl
  | cons op ops ih =>
    rw [cons_append, run, run, bind_assoc]
    congr 1
    funext held'
    exact ih held'

theorem step_add {op : Op L} (k : L → Nat) (h : step held op = some held')
    : step (fun l => held l + k l) op = some fun l => held' l + k l := by
  cases op with
  | acquire l =>
    rw [step, some_inj] at h
    rw [step, ← h, some_inj]
    funext m
    by_cases hm : m = l
    . rw [hm, update_self, update_self]
      omega
    . rw [update_of_ne hm, update_of_ne hm]
  | release l =>
    rw [step] at h
    by_cases hzero : held l = 0
    . rw [if_pos hzero] at h
      contradiction
    rw [if_neg hzero, some_inj] at h
    rw [step, if_neg (by omega), ← h, some_inj]
    funext m
    by_cases hm : m = l
    . rw [hm, update_self, update_self]
      omega
    . rw [update_of_ne hm, update_of_ne hm]

theorem run_add (k : L → Nat) (h : run ops held = some held')
    : run ops (fun l => held l + k l) = some fun l => held' l + k l := by
  induction ops generalizing held with
  | nil =>
    rw [run, some_inj] at h
    rw [run, h]
  | cons op ops ih =>
    rw [run] at h
    obtain ⟨mid, hstep, hrun⟩ := bind_eq_some_iff.mp h
    rw [run, step_add k hstep]
    exact ih hrun

theorem Balanced.run_eq (h : Balanced ops) (held : L → Nat) : run ops held = some held := by
  have hadd := run_add held h
  simp only [Nat.zero_add] at hadd
  exact hadd

theorem balanced_nil : Balanced ([] : List (Op L)) := by
  rfl

theorem Balanced.append (h : Balanced ops) (h' : Balanced ops') : Balanced (ops ++ ops') := by
  unfold Balanced
  rw [run_append, h.run_eq]
  exact h'

theorem Balanced.wrap (h : Balanced ops) (l : L) : Balanced (.acquire l :: (ops ++ [.release l])) := by
  unfold Balanced
  rw [run, step, bind_some, run_append, h.run_eq, bind_some, run, step, if_neg]
  . rw [bind_some, run, some_inj]
    funext m
    by_cases hm : m = l
    . rw [hm, update_self, update_self]
    . rw [update_of_ne hm, update_of_ne hm]
  . rw [update_self]
    omega

theorem balanced_flatten {traces : List (List (Op L))} (h : ∀ ops ∈ traces, Balanced ops)
    : Balanced traces.flatten := by
  induction traces with
  | nil => exact balanced_nil
  | cons ops traces ih =>
    rw [flatten_cons]
    apply (h ops (mem_cons_self ..)).append
    exact ih fun ops hops => h ops (mem_cons_of_mem _ hops)

def net (l : L) : List (Op L) → Int
  | [] => 0
  | .acquire m :: ops => (if m = l then 1 else 0) + net l ops
  | .release m :: ops => (if m = l then -1 else 0) + net l ops

theorem run_net (h : run ops held = some held') (l : L) : (held' l : Int) = held l + net l ops := by
  induction ops generalizing held with
  | nil =>
    rw [run, some_inj] at h
    rw [h, net]
    omega
  | cons op ops ih =>
    rw [run] at h
    obtain ⟨mid, hstep, hrun⟩ := bind_eq_some_iff.mp h
    rw [ih hrun]
    cases op with
    | acquire m =>
      rw [step, some_inj] at hstep
      rw [net, ← hstep, update_apply]
      by_cases hm : l = m
      . rw [if_pos hm, if_pos hm.symm, hm]
        omega
      . rw [if_neg hm, if_neg (Ne.symm hm)]
        omega
    | release m =>
      rw [step] at hstep
      by_cases hzero : held m = 0
      . rw [if_pos hzero] at hstep
        contradiction
      rw [if_neg hzero, some_inj] at hstep
      rw [net, ← hstep, update_apply]
      by_cases hm : l = m
      . rw [if_pos hm, if_pos hm.symm, hm]
        omega
      . rw [if_neg hm, if_neg (Ne.symm hm)]
        omega

theorem Balanced.net_eq (h : Balanced ops) (l : L) : net l ops = 0 := by
  have hnet := run_net h l
  simpa using hnet.symm

end LockTrace
