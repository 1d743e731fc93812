import Mathlib

namespace EarlyReturn

variable {ε α β γ : Type}

def Ends (post : β → Prop) (exit : ε → Prop) : Except ε β → Prop
  | .ok b => post b
  | .error e => exit e

def Triple (pre : α → Prop) (f : α → Except ε β) (post : β → Prop) (exit : ε → Prop) : Prop :=
  ∀ a, pre a → Ends post exit (f a)

variable {exit : ε → Prop} {f : α → Except ε β} {g : β → Except ε γ} {pre : α → Prop} {a : α}
  {post : β → Prop}

theorem Triple.bind {mid : β → Prop}
    {post : γ → Prop} (hf : Triple pre f mid exit) (hg : Triple mid g post exit)
    : Triple pre (fun a => f a >>= g) post exit := by
  intro a ha
  have hfa := hf a ha
  dsimp only
  cases h : f a with
  | error e =>
    rw [h] at hfa
    exact hfa
  | ok b =>
    rw [h] at hfa
    apply hg b hfa

theorem Triple.ok (h : Triple pre f post exit) {b : β} (ha : pre a) (hf : f a = .ok b)
    : post b := by
  have hfa := h a ha
  rw [hf] at hfa
  exact hfa

theorem Triple.error (h : Triple pre f post exit) {e : ε} (ha : pre a) (hf : f a = .error e)
    : exit e := by
  have hfa := h a ha
  rw [hf] at hfa
  exact hfa

section Relational

variable {ε' α' β' γ' : Type}

def EndBoth (post : β → β' → Prop) (exit : ε → ε' → Prop) : Except ε β → Except ε' β' → Prop
  | .ok b, .ok b' => post b b'
  | .error e, .error e' => exit e e'
  | _, _ => False

def Rel (pre : α → α' → Prop) (f : α → Except ε β) (f' : α' → Except ε' β')
    (post : β → β' → Prop) (exit : ε → ε' → Prop) : Prop :=
  ∀ a a', pre a a' → EndBoth post exit (f a) (f' a')

theorem Rel.bind {pre : α → α' → Prop} {f' : α' → Except ε' β'}
    {mid : β → β' → Prop} {g' : β' → Except ε' γ'} {post : γ → γ' → Prop}
    {exit : ε → ε' → Prop} (hf : Rel pre f f' mid exit) (hg : Rel mid g g' post exit)
    : Rel pre (fun a => f a >>= g) (fun a => f' a >>= g') post exit := by
  intro a a' ha
  have hfa := hf a a' ha
  dsimp only
  cases h : f a with
  | error e =>
    cases h' : f' a' with
    | error e' =>
      rw [h, h'] at hfa
      exact hfa
    | ok b' =>
      rw [h, h'] at hfa
      exact hfa.elim
  | ok b =>
    cases h' : f' a' with
    | error e' =>
      rw [h, h'] at hfa
      exact hfa.elim
    | ok b' =>
      rw [h, h'] at hfa
      apply hg b b' hfa

end Relational

end EarlyReturn
