import Mathlib

namespace Chain

open Function

variable {α : Type}

def Seg (next : α → Option α) (p : Option α) (l : List α) (r : Option α) : Prop :=
  match l with
  | [] => p = r
  | a :: l => p = some a ∧ Seg next (next a) l r

def Linked (next : α → Option α) (p : Option α) (l : List α) : Prop :=
  Seg next p l none

variable {next next' : α → Option α} {p r : Option α} {l m : List α} {a : α}

theorem seg_append : Seg next p (l ++ m) r ↔ ∃ mid, Seg next p l mid ∧ Seg next mid m r := by
  induction l generalizing p with
  | nil => simp [Seg]
  | cons a l ih =>
    simp only [List.cons_append, Seg]
    rw [ih]
    constructor
    . rintro ⟨hp, mid, hl, hm⟩
      exact ⟨mid, ⟨hp, hl⟩, hm⟩
    . rintro ⟨mid, ⟨hp, hl⟩, hm⟩
      exact ⟨hp, mid, hl, hm⟩

theorem seg_concat : Seg next p (l ++ [a]) r ↔ Seg next p l (some a) ∧ next a = r := by
  rw [seg_append]
  simp only [Seg]
  constructor
  . rintro ⟨mid, hl, hmid, hr⟩
    rw [hmid] at hl
    exact ⟨hl, hr⟩
  . rintro ⟨hl, hr⟩
    exact ⟨_, hl, rfl, hr⟩

theorem Seg.congr (h : ∀ a ∈ l, next' a = next a) : Seg next' p l r ↔ Seg next p l r := by
  induction l generalizing p with
  | nil => rfl
  | cons a l ih =>
    simp only [Seg]
    rw [h a List.mem_cons_self]
    rw [ih (fun b hb => h b (List.mem_cons_of_mem a hb))]

@[simp]
theorem linked_nil : Linked next p [] ↔ p = none := by
  rfl

@[simp]
theorem linked_cons : Linked next p (a :: l) ↔ p = some a ∧ Linked next (next a) l := by
  rfl

theorem Linked.congr (h : ∀ a ∈ l, next' a = next a) : Linked next' p l ↔ Linked next p l :=
  Seg.congr h

theorem Linked.unique (h1 : Linked next p l) (h2 : Linked next p m) : l = m := by
  induction l generalizing p m with
  | nil =>
    cases m with
    | nil => rfl
    | cons b m =>
      rw [linked_nil] at h1
      rw [linked_cons, h1] at h2
      simp at h2
  | cons a l ih =>
    rw [linked_cons] at h1
    cases m with
    | nil =>
      rw [linked_nil, h1.1] at h2
      simp at h2
    | cons b m =>
      rw [linked_cons, h1.1, Option.some.injEq] at h2
      have hm := h2.2
      rw [← h2.1] at hm
      rw [← h2.1, ih h1.2 hm]

theorem Linked.eq_nil_iff (h : Linked next p l) : l = [] ↔ p = none := by
  cases l with
  | nil =>
    rw [linked_nil] at h
    simp [h]
  | cons a l =>
    rw [linked_cons] at h
    simp [h.1]

theorem Linked.nodup (h : Linked next p l) : l.Nodup := by
  induction l generalizing p with
  | nil => exact List.nodup_nil
  | cons a l ih =>
    rw [linked_cons] at h
    rw [List.nodup_cons]
    refine ⟨?_, ih h.2⟩
    intro hmem
    -- Two chains would go on from `a`, one of them a part of the other.
    rcases List.append_of_mem hmem with ⟨s, t, hst⟩
    have hl := h.2
    rw [hst, Linked, seg_append] at hl
    rcases hl with ⟨mid, _, _, ht⟩
    have heq := h.2.unique ht
    have hlen := congrArg List.length heq
    rw [hst] at hlen
    simp at hlen
    omega

theorem Linked.le_of_mem [Preorder α] {P : α → Prop} (h : Linked next (some a) l) (ha : P a)
    (hnext : ∀ b c, P b → next b = some c → b < c ∧ P c) : ∀ b ∈ l, a ≤ b := by
  induction l generalizing a with
  | nil => simp
  | cons b l ih =>
    rw [linked_cons, Option.some.injEq] at h
    intro c hc
    rcases List.mem_cons.mp hc with heq | hmem
    . rw [heq, h.1]
    have hrest := h.2
    rw [← h.1] at hrest
    cases hb : next a with
    | none =>
      rw [hb] at hrest
      rw [hrest.eq_nil_iff.mpr rfl] at hmem
      simp at hmem
    | some d =>
      rw [hb] at hrest
      have hd := hnext a d ha hb
      apply hd.1.le.trans
      apply ih hrest hd.2 c hmem

variable [DecidableEq α]

theorem Linked.concat {b : α} (h : Linked next p (l ++ [a])) (hb : next b = none) (hne : b ∉ l ++ [a])
    : Linked (update next a (some b)) p (l ++ [a] ++ [b]) := by
  have hnodup := h.nodup
  rw [List.nodup_append] at hnodup
  have ha : ∀ c ∈ l, update next a (some b) c = next c := by
    intro c hc
    apply update_of_ne
    apply hnodup.2.2 c hc a List.mem_cons_self
  have hba : b ≠ a := by
    intro heq
    apply hne
    simp [heq]
  rw [Linked, seg_concat] at h ⊢
  refine ⟨seg_concat.mpr ⟨(Seg.congr ha).mpr h.1, ?_⟩, ?_⟩
  . rw [update_self]
  . rw [update_of_ne hba, hb]

end Chain
