import Mathlib

namespace Reach

variable {σ α : Type}

inductive Reachable (step : σ → α → σ → Prop) (ok : σ → α → Prop) (init : σ) : σ → Prop where
  | init : Reachable step ok init init
  | step {s s' : σ} {a : α}
      : Reachable step ok init s → ok s a → step s a s' → Reachable step ok init s'

variable {step : σ → α → σ → Prop} {ok : σ → α → Prop} {init : σ}

theorem Reachable.invariant {inv : σ → Prop} (hinit : inv init)
    (hstep : ∀ s a s', inv s → ok s a → step s a s' → inv s') {s : σ} (h : Reachable step ok init s)
    : inv s := by
  induction h with
  | init => exact hinit
  | step _ hok hs ih => apply hstep _ _ _ ih hok hs

theorem Reachable.foldl {f : σ → α → σ} (hf : ∀ s a, step s a (f s a)) (actions : List α)
    (hok : ∀ a ∈ actions, ∀ s, ok s a) : Reachable step ok init (actions.foldl f init) := by
  induction actions using List.reverseRecOn with
  | nil => exact Reachable.init
  | append_singleton actions a ih =>
    rw [List.foldl_append]
    apply Reachable.step
    . apply ih
      intro b hb
      apply hok b (List.mem_append_left _ hb)
    . apply hok a (by simp)
    . apply hf

theorem Reachable.foldlM {f : σ → α → Option σ} (actions : List α)
    (hf : ∀ a ∈ actions, ∀ s s', f s a = some s' → ok s a ∧ step s a s') {s : σ}
    (h : actions.foldlM f init = some s) : Reachable step ok init s := by
  induction actions using List.reverseRecOn generalizing s with
  | nil =>
    rw [List.foldlM_nil, Option.pure_def, Option.some.injEq] at h
    rw [← h]
    exact Reachable.init
  | append_singleton actions a ih =>
    rw [List.foldlM_append, Option.bind_eq_bind, Option.bind_eq_some_iff] at h
    rcases h with ⟨t, ht, h⟩
    simp only [List.foldlM_cons, List.foldlM_nil, Option.pure_def, Option.bind_eq_bind,
      Option.bind_fun_some] at h
    have ha := hf a (by simp) t s h
    apply Reachable.step _ ha.1 ha.2
    apply ih _ ht
    intro b hb
    apply hf b (List.mem_append_left _ hb)

end Reach
