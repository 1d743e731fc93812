import MiniGui.Library.Chain

namespace DList

open Function List

open Chain

variable {α : Type} [DecidableEq α]

def link (nil a : α) : Option α :=
  if a = nil then none else some a

structure Valid (nil : α) (next prev : α → α) (first : α) (l : List α) : Prop where
  forward : Linked (fun a => link nil (next a)) (link nil first) l
  backward : Linked (fun a => link nil (prev a)) l.getLast? l.reverse

variable {nil first : α} {next prev next' prev' : α → α} {l m : List α} {a x : α}

@[simp]
theorem link_eq_none : link nil a = none ↔ a = nil := by
  simp [link]

@[simp]
theorem link_eq_some : link nil a = some x ↔ a = x ∧ x ≠ nil := by
  unfold link
  split
  . next h =>
    rw [h]
    simp only [reduceCtorEq, false_iff, not_and, not_not]
    exact Eq.symm
  rename_i h
  rw [Option.some.injEq]
  constructor
  . intro heq
    rw [heq] at h
    exact ⟨heq, h⟩
  . intro heq
    exact heq.1

theorem Valid.nodup (h : Valid nil next prev first l) : l.Nodup :=
  h.forward.nodup

theorem ne_nil_of_linked {p : Option α} (h : Linked (fun a => link nil (next a)) p l)
    (hp : p ≠ some nil) : nil ∉ l := by
  induction l generalizing p with
  | nil => simp
  | cons a l ih =>
    rw [linked_cons] at h
    rw [mem_cons, not_or]
    constructor
    . intro heq
      rw [heq] at hp
      exact hp h.1
    apply ih h.2
    intro heq
    rw [link_eq_some] at heq
    exact heq.2 rfl

theorem Valid.ne_nil (h : Valid nil next prev first l) (hx : x ∈ l) : x ≠ nil := by
  intro heq
  rw [heq] at hx
  apply ne_nil_of_linked h.forward _ hx
  intro heq
  rw [link_eq_some] at heq
  exact heq.2 rfl

theorem Valid.congr (h : Valid nil next prev first l) (hnext : ∀ a ∈ l, next' a = next a)
    (hprev : ∀ a ∈ l, prev' a = prev a) : Valid nil next' prev' first l := by
  constructor
  . rw [@Linked.congr _ (fun a => link nil (next a))]
    . exact h.forward
    . intro a ha
      rw [hnext a ha]
  rw [@Linked.congr _ (fun a => link nil (prev a))]
  . exact h.backward
  . intro a ha
    rw [hprev a (mem_reverse.mp ha)]

@[simp]
theorem valid_nil : Valid nil next prev first [] ↔ first = nil := by
  constructor
  . intro h
    have := h.forward
    simpa using this
  intro h
  constructor
  . simpa using h
  . simp

theorem Valid.next_eq (h : Valid nil next prev first (l ++ x :: m))
    : link nil (next x) = m.head? := by
  have hf := h.forward
  rw [Linked, seg_append] at hf
  rcases hf with ⟨mid, _, hm⟩
  cases m with
  | nil => exact hm.2
  | cons y m => exact hm.2.1

theorem Valid.prev_eq (h : Valid nil next prev first (l ++ x :: m))
    : link nil (prev x) = l.getLast? := by
  have hb := h.backward
  rw [reverse_append, reverse_cons, append_assoc, Linked, seg_append] at hb
  rcases hb with ⟨mid, _, hm⟩
  rw [singleton_append] at hm
  rw [getLast?_eq_head?_reverse]
  cases hl : l.reverse with
  | nil =>
    rw [hl] at hm
    exact hm.2
  | cons y r =>
    rw [hl] at hm
    exact hm.2.1

section

variable (h : Valid nil next prev first l)
include h

theorem Valid.first_mem : first = nil ∨ first ∈ l := by
  have hf := h.forward
  cases l with
  | nil =>
    left
    simpa using hf
  | cons y l =>
    rw [linked_cons, link_eq_some] at hf
    right
    rw [hf.1.1]
    exact mem_cons_self

theorem Valid.next_mem (hx : x ∈ l) : next x = nil ∨ next x ∈ l := by
  rcases append_of_mem hx with ⟨l', m, heq⟩
  rw [heq] at h ⊢
  have hnext := h.next_eq
  cases m with
  | nil =>
    left
    simpa using hnext
  | cons y m =>
    rw [head?_cons, link_eq_some] at hnext
    right
    rw [hnext.1]
    simp

theorem Valid.prev_mem (hx : x ∈ l) : prev x = nil ∨ prev x ∈ l := by
  rcases append_of_mem hx with ⟨l', m, heq⟩
  rw [heq] at h ⊢
  have hprev := h.prev_eq
  cases hlast : l'.getLast? with
  | none =>
    left
    rw [hlast] at hprev
    simpa using hprev
  | some y =>
    rw [hlast, link_eq_some] at hprev
    right
    rw [hprev.1, mem_append]
    left
    exact mem_of_getLast? hlast

theorem Valid.next_eq_iff {y : α} (hx : x ∈ l) (hy : y ∈ l) : next x = y ↔ prev y = x := by
  constructor
  . intro heq
    rcases append_of_mem hx with ⟨l', m, hsplit⟩
    have hy' := h.ne_nil hy
    rw [hsplit] at h
    have hnext := h.next_eq
    have hlink : link nil y = some y := link_eq_some.mpr ⟨rfl, hy'⟩
    rw [heq, hlink] at hnext
    cases m with
    | nil => simp at hnext
    | cons z m =>
      rw [head?_cons, Option.some.injEq] at hnext
      rw [← hnext, ← singleton_append, ← append_assoc] at h
      have hprev := h.prev_eq
      rw [getLast?_concat, link_eq_some] at hprev
      exact hprev.1
  intro heq
  rcases append_of_mem hy with ⟨l', m, hsplit⟩
  have hx' := h.ne_nil hx
  rw [hsplit] at h
  have hprev := h.prev_eq
  have hlink : link nil x = some x := link_eq_some.mpr ⟨rfl, hx'⟩
  rw [heq, hlink] at hprev
  rcases eq_nil_or_concat l' with hnil | ⟨init, z, hconcat⟩
  . rw [hnil] at hprev
    simp at hprev
  rw [hconcat, concat_eq_append] at hprev h
  rw [getLast?_concat, Option.some.injEq] at hprev
  rw [← hprev, append_assoc, singleton_append] at h
  have hnext := h.next_eq
  rw [head?_cons, link_eq_some] at hnext
  exact hnext.1

end

theorem linked_remove {p : Option α} (h : Linked (fun a => link nil (next a)) p (l ++ x :: m))
    (hnext' : ∀ a, next' a = if l.getLast? = some a then next x else next a)
    : Linked (fun a => link nil (next' a)) (if l = [] then link nil (next x) else p) (l ++ m) := by
  have hnodup := h.nodup
  rw [Linked, seg_append] at h
  rcases h with ⟨mid, hl, hm⟩
  have hrest : Linked (fun a => link nil (next a)) (link nil (next x)) m := hm.2
  have hcongr : ∀ a ∈ m, next' a = next a := by
    intro a ha
    rw [hnext', if_neg]
    intro hlast
    rw [nodup_append] at hnodup
    exact hnodup.2.2 a (mem_of_getLast? hlast) a (mem_cons_of_mem x ha) rfl
  have hrest' : Linked (fun a => link nil (next' a)) (link nil (next x)) m := by
    rw [@Linked.congr _ (fun a => link nil (next a))]
    . exact hrest
    . intro a ha
      rw [hcongr a ha]
  rcases eq_nil_or_concat l with hnil | ⟨init, y, hconcat⟩
  . rw [hnil, if_pos rfl]
    exact hrest'
  rw [concat_eq_append] at hconcat
  rw [hconcat] at hl hnodup ⊢
  rw [if_neg (by simp), Linked, seg_append]
  rw [seg_concat] at hl
  refine ⟨link nil (next' y), seg_concat.mpr ⟨?_, rfl⟩, ?_⟩
  . rw [@Seg.congr _ (fun a => link nil (next a))]
    . exact hl.1
    intro a ha
    rw [hnext', if_neg]
    rw [hconcat, getLast?_concat, Option.some.injEq]
    intro heq
    rw [append_assoc, nodup_append] at hnodup
    exact hnodup.2.2 a ha y (by simp) heq.symm
  . rw [hnext', hconcat, getLast?_concat, if_pos rfl]
    exact hrest'

theorem Valid.remove (h : Valid nil next prev first (l ++ x :: m))
    (hnext' : next' = if prev x = nil then next else Function.update next (prev x) (next x))
    (hprev' : prev' = if next x = nil then prev else Function.update prev (next x) (prev x))
    : Valid nil next' prev' (if first = x then next x else first) (l ++ m) := by
  have hprevx := h.prev_eq
  have hnextx := h.next_eq
  have hx : x ≠ nil := h.ne_nil (by simp)
  constructor
  . have hmove : ∀ a, next' a = if l.getLast? = some a then next x else next a := by
      intro a
      rw [← hprevx, hnext']
      by_cases hnil : prev x = nil
      . rw [if_pos hnil, if_neg]
        rw [link_eq_some, hnil]
        rintro ⟨heq, hne⟩
        exact hne heq.symm
      rw [if_neg hnil]
      by_cases ha : a = prev x
      . rw [ha, update_self, if_pos (link_eq_some.mpr ⟨rfl, hnil⟩)]
      rw [update_of_ne ha, if_neg]
      rw [link_eq_some]
      rintro ⟨heq, _⟩
      exact ha heq.symm
    have hremove := linked_remove h.forward hmove
    have hfirst : first = x ↔ l = [] := by
      have hf := h.forward
      have hnodup := h.nodup
      cases l with
      | nil =>
        rw [nil_append, linked_cons, link_eq_some] at hf
        simp [hf.1.1]
      | cons y l =>
        rw [cons_append, linked_cons, link_eq_some] at hf
        simp only [hf.1.1, reduceCtorEq, iff_false]
        intro heq
        rw [cons_append, nodup_cons] at hnodup
        apply hnodup.1
        simp [heq]
    by_cases hl : l = []
    . rw [if_pos hl] at hremove
      rw [if_pos (hfirst.mpr hl)]
      exact hremove
    . rw [if_neg hl] at hremove
      rw [if_neg (fun heq => hl (hfirst.mp heq))]
      exact hremove
  have hmove : ∀ a, prev' a = if m.reverse.getLast? = some a then prev x else prev a := by
    intro a
    rw [getLast?_reverse, ← hnextx, hprev']
    by_cases hnil : next x = nil
    . rw [if_pos hnil, if_neg]
      rw [link_eq_some, hnil]
      rintro ⟨heq, hne⟩
      exact hne heq.symm
    rw [if_neg hnil]
    by_cases ha : a = next x
    . rw [ha, update_self, if_pos (link_eq_some.mpr ⟨rfl, hnil⟩)]
    rw [update_of_ne ha, if_neg]
    rw [link_eq_some]
    rintro ⟨heq, _⟩
    exact ha heq.symm
  have hb := h.backward
  rw [reverse_append, reverse_cons, append_assoc, singleton_append] at hb
  have hremove := linked_remove hb hmove
  rw [← reverse_append] at hremove
  by_cases hm : m = []
  . rw [hm] at hremove ⊢
    rw [reverse_nil, if_pos rfl, hprevx] at hremove
    simpa using hremove
  rw [if_neg (by simpa using hm)] at hremove
  have hlast : (l ++ x :: m).getLast? = (l ++ m).getLast? := by
    rw [getLast?_append_of_ne_nil _ hm, getLast?_append_of_ne_nil _ (by simp),
      List.getLast?_cons]
    cases hm' : m.getLast? with
    | none => simp [hm] at hm'
    | some y => rfl
  rw [← hlast]
  exact hremove

theorem Valid.cons (h : Valid nil next prev first l) (hx : x ≠ nil) (hnew : x ∉ l)
    (hnext' : ∀ a, a = x ∨ a ∈ l → next' a = if a = x then first else next a)
    (hprev' : ∀ a, a = x ∨ a ∈ l → prev' a = if a = x then nil else if a = first then x else prev a)
    : Valid nil next' prev' x (x :: l) := by
  have hne : ∀ a ∈ l, a ≠ x := by
    intro a ha heq
    rw [heq] at ha
    exact hnew ha
  constructor
  . rw [linked_cons]
    refine ⟨link_eq_some.mpr ⟨rfl, hx⟩, ?_⟩
    rw [hnext' x (.inl rfl), if_pos rfl, @Linked.congr _ (fun a => link nil (next a))]
    . exact h.forward
    . intro a ha
      rw [hnext' a (.inr ha), if_neg (hne a ha)]
  have hb := h.backward
  rw [reverse_cons]
  cases l with
  | nil =>
    simp only [getLast?_singleton, reverse_nil, nil_append, linked_cons, linked_nil,
      true_and]
    rw [link_eq_none, hprev' x (.inl rfl), if_pos rfl]
  | cons y l =>
    have hfirst : first = y := by
      have hf := h.forward
      rw [linked_cons, link_eq_some] at hf
      exact hf.1.1
    rw [getLast?_cons_cons]
    have hnodup := h.nodup
    rw [nodup_cons] at hnodup
    rw [reverse_cons] at hb ⊢
    rw [Linked, seg_concat] at hb ⊢
    refine ⟨?_, ?_⟩
    . rw [seg_concat]
      refine ⟨?_, ?_⟩
      . rw [@Seg.congr _ (fun a => link nil (prev a))]
        . exact hb.1
        intro a ha
        rw [mem_reverse] at ha
        have ha' : a ≠ first := by
          rw [hfirst]
          intro heq
          rw [heq] at ha
          exact hnodup.1 ha
        have hmem := mem_cons_of_mem y ha
        rw [hprev' a (.inr hmem), if_neg (hne a hmem), if_neg ha']
      . have hy : y ∈ y :: l := mem_cons_self
        rw [hprev' y (.inr hy), if_neg (hne y hy), if_pos hfirst.symm, link_eq_some]
        exact ⟨rfl, hx⟩
    . rw [hprev' x (.inl rfl), if_pos rfl, link_eq_none]

theorem Valid.concat (h : Valid nil next prev first l) (hx : x ≠ nil) (hnew : x ∉ l)
    (hnext' : ∀ a, next' a = if a = x then nil else if l.getLast? = some a then x else next a)
    (hprev' : ∀ a, prev' a = if a = x then l.getLast?.getD nil else prev a)
    : Valid nil next' prev' (if l = [] then x else first) (l ++ [x]) := by
  have hnodup := h.nodup
  have hxnil : link nil (next' x) = none := by
    rw [hnext', if_pos rfl]
    exact link_eq_none.mpr rfl
  constructor
  . rcases eq_nil_or_concat l with hnil | ⟨init, y, hconcat⟩
    . rw [hnil, if_pos rfl, nil_append, linked_cons]
      exact ⟨link_eq_some.mpr ⟨rfl, hx⟩, linked_nil.mpr hxnil⟩
    rw [concat_eq_append] at hconcat
    have hf := h.forward
    rw [hconcat] at hf hnew hnodup ⊢
    rw [if_neg (by simp), Linked, seg_concat]
    rw [Linked, seg_concat] at hf
    refine ⟨?_, hxnil⟩
    rw [seg_concat]
    constructor
    . rw [@Seg.congr _ (fun a => link nil (next a))]
      . exact hf.1
      intro a ha
      have hax : a ≠ x := by
        intro heq
        apply hnew
        rw [← heq]
        exact mem_append_left _ ha
      have hay : y ≠ a := by
        intro heq
        rw [nodup_append] at hnodup
        exact hnodup.2.2 a ha y (by simp) heq.symm
      rw [hnext', if_neg hax, if_neg]
      rw [hconcat, getLast?_concat, Option.some.injEq]
      exact hay
    have hyx : y ≠ x := by
      intro heq
      apply hnew
      rw [heq]
      simp
    rw [hnext', if_neg hyx, hconcat, getLast?_concat, if_pos rfl, link_eq_some]
    exact ⟨rfl, hx⟩
  rw [reverse_append, reverse_singleton, singleton_append, linked_cons, getLast?_concat]
  refine ⟨rfl, ?_⟩
  have hlink : link nil (prev' x) = l.getLast? := by
    rw [hprev', if_pos rfl]
    cases hlast : l.getLast? with
    | none => exact link_eq_none.mpr rfl
    | some y => exact link_eq_some.mpr ⟨rfl, h.ne_nil (mem_of_getLast? hlast)⟩
  rw [hlink, @Linked.congr _ (fun a => link nil (prev a))]
  . exact h.backward
  intro a ha
  rw [hprev', if_neg]
  intro heq
  rw [heq, mem_reverse] at ha
  exact hnew ha

end DList
