import Mathlib

namespace LinkRing

open Function List

variable {α : Type}

structure Round (f : α → α) (head : α) (l : List α) : Prop where
  chain : (head :: l ++ [head]).IsChain (fun u v => f u = v)
  nodup : (head :: l).Nodup

structure Ring (next prev : α → α) (head : α) (l : List α) : Prop where
  next : Round next head l
  prev : Round prev head l.reverse

variable {f f' next prev : α → α} {head x : α} {l m : List α}

theorem getLast?_cons (head : α) (l : List α) : (head :: l).getLast? = some (l.getLast?.getD head) := by
  rw [List.getLast?_cons]

theorem head?_concat (head : α) (m : List α) : (m ++ [head]).head? = some (m.head?.getD head) := by
  cases m with
  | nil => rfl
  | cons y m => rfl

theorem round_append : Round f head (l ++ m)
    ↔ ((head :: l).IsChain (fun u v => f u = v) ∧ (m ++ [head]).IsChain (fun u v => f u = v)
        ∧ f (l.getLast?.getD head) = m.head?.getD head)
      ∧ (head :: (l ++ m)).Nodup := by
  have hlist : head :: (l ++ m) ++ [head] = (head :: l) ++ (m ++ [head]) := by simp
  constructor
  . rintro ⟨hchain, hnodup⟩
    rw [hlist, isChain_append] at hchain
    exact ⟨⟨hchain.1, hchain.2.1, hchain.2.2 _ (getLast?_cons head l) _ (head?_concat head m)⟩, hnodup⟩
  rintro ⟨⟨hfront, hback, hjoin⟩, hnodup⟩
  refine ⟨?_, hnodup⟩
  rw [hlist, isChain_append]
  refine ⟨hfront, hback, ?_⟩
  intro u hu v hv
  rw [getLast?_cons] at hu
  rw [head?_concat] at hv
  obtain rfl := Option.some.inj hu
  obtain rfl := Option.some.inj hv
  exact hjoin

theorem Round.congr (h : Round f head l) (heq : ∀ u ∈ head :: l, f' u = f u) : Round f' head l := by
  refine ⟨h.chain.imp_of_mem_tail_imp ?_, h.nodup⟩
  intro u v hu _ huv
  have hmem : u ∈ head :: l := by
    rcases mem_append.mp hu with hu | hu
    . exact hu
    . rw [mem_singleton.mp hu]
      exact mem_cons_self
  rw [heq u hmem]
  exact huv

theorem Round.apply (h : Round f head (l ++ x :: m)) : f x = m.head?.getD head := by
  have hsplit : l ++ x :: m = (l ++ [x]) ++ m := by simp
  rw [hsplit] at h
  have hjoin := (round_append.mp h).1.2.2
  rwa [getLast?_concat, Option.getD_some] at hjoin

theorem Round.apply_pred (h : Round f head (l ++ x :: m)) : f (l.getLast?.getD head) = x :=
  (round_append.mp h).1.2.2

theorem last_mem (head : α) (l : List α) : l.getLast?.getD head ∈ head :: l :=
  mem_of_getLast? (getLast?_cons head l)

theorem Ring.next_eq (h : Ring next prev head (l ++ x :: m)) : next x = m.head?.getD head :=
  h.next.apply

theorem Ring.prev_eq (h : Ring next prev head (l ++ x :: m)) : prev x = l.getLast?.getD head := by
  have hprev := h.prev
  rw [reverse_append, reverse_cons, append_assoc] at hprev
  change Round prev head (m.reverse ++ x :: l.reverse) at hprev
  rw [hprev.apply, head?_reverse]

theorem Ring.next_head (h : Ring next prev head l) : next head = l.head?.getD head := by
  have hnext := h.next
  rw [← nil_append l] at hnext
  exact (round_append.mp hnext).1.2.2

theorem Ring.prev_head (h : Ring next prev head l) : prev head = l.getLast?.getD head := by
  have hprev := h.prev
  rw [← nil_append l.reverse] at hprev
  have hjoin := (round_append.mp hprev).1.2.2
  rwa [head?_reverse] at hjoin

theorem Ring.congr {next' prev' : α → α} (h : Ring next prev head l) (hnext : ∀ u ∈ head :: l, next' u = next u)
    (hprev : ∀ u ∈ head :: l, prev' u = prev u) : Ring next' prev' head l := by
  refine ⟨h.next.congr hnext, h.prev.congr fun u hu => hprev u ?_⟩
  rcases mem_cons.mp hu with rfl | hu
  . exact mem_cons_self
  . exact mem_cons_of_mem _ (mem_reverse.mp hu)

variable [DecidableEq α]

theorem Round.remove (h : Round f head (l ++ x :: m))
    : Round (update f (l.getLast?.getD head) (f x)) head (l ++ m) := by
  have hx := h.apply
  have hpred := h.apply_pred
  obtain ⟨⟨hfront, hback, -⟩, hnodup⟩ := round_append.mp h
  have hother : x ∉ l ∧ x ∉ m ∧ x ≠ head := by
    simp only [nodup_cons, nodup_append, mem_append, mem_cons] at hnodup
    grind
  -- no other node leads to the one that is skipped
  have hkeep (u v : α) (hv : v ≠ x) (huv : f u = v) : update f (l.getLast?.getD head) (f x) u = v := by
    rw [update_of_ne]
    . exact huv
    . rintro rfl
      exact hv (huv.symm.trans hpred)
  refine round_append.mpr ⟨⟨hfront.imp_of_mem_tail_imp ?_, ?_, ?_⟩, ?_⟩
  . intro u v _ hv huv
    refine hkeep u v ?_ huv
    rintro rfl
    exact hother.1 hv
  . refine (hback.tail).imp_of_mem_tail_imp ?_
    intro u v _ hv huv
    refine hkeep u v ?_ huv
    rintro rfl
    rcases mem_append.mp (mem_of_mem_tail hv) with hmem | hmem
    . exact hother.2.1 hmem
    . exact hother.2.2 (mem_singleton.mp hmem)
  . rw [update_self, hx]
  . refine hnodup.sublist ?_
    simp

theorem Round.insert (h : Round f head (l ++ m)) (hx : x ∉ head :: (l ++ m))
    : Round (update (update f x (f (l.getLast?.getD head))) (l.getLast?.getD head) x) head
        (l ++ x :: m) := by
  obtain ⟨⟨hfront, hback, hjoin⟩, hnodup⟩ := round_append.mp h
  have hlast := last_mem head l
  have hne : l.getLast?.getD head ≠ x := by
    rintro rfl
    refine hx ?_
    rcases mem_cons.mp hlast with heq | hmem
    . rw [heq]
      exact mem_cons_self
    . exact mem_cons_of_mem _ (mem_append_left _ hmem)
  have hkeep (u v : α) (hu : u ≠ x) (hv : v ≠ m.head?.getD head) (huv : f u = v)
      : update (update f x (f (l.getLast?.getD head))) (l.getLast?.getD head) x u = v := by
    rw [update_of_ne, update_of_ne hu]
    . exact huv
    . rintro rfl
      exact hv (huv.symm.trans hjoin)
  refine round_append.mpr ⟨⟨hfront.imp_of_mem_tail_imp ?_, ?_, update_self _ _ _⟩, ?_⟩
  . intro u v hu hv huv
    refine hkeep u v ?_ ?_ huv
    . rintro rfl
      refine hx ?_
      rcases mem_cons.mp hu with heq | hmem
      . rw [heq]
        exact mem_cons_self
      . exact mem_cons_of_mem _ (mem_append_left _ hmem)
    rintro rfl
    cases m with
    | nil =>
      simp only [nodup_cons, mem_append] at hnodup
      exact hnodup.1 (Or.inl hv)
    | cons y m =>
      have hdisjoint := (nodup_append.mp (nodup_cons.mp hnodup).2).2.2
      exact hdisjoint y hv y mem_cons_self rfl
  . rw [cons_append]
    refine isChain_cons.mpr ⟨?_, hback.imp_of_mem_tail_imp ?_⟩
    . intro y hy
      rw [head?_concat] at hy
      obtain rfl := Option.some.inj hy
      rw [update_of_ne hne.symm, update_self, hjoin]
    intro u v hu hv huv
    refine hkeep u v ?_ ?_ huv
    . rintro rfl
      refine hx ?_
      rcases mem_append.mp hu with hmem | hmem
      . exact mem_cons_of_mem _ (mem_append_right _ hmem)
      . rw [mem_singleton.mp hmem]
        exact mem_cons_self
    rintro rfl
    cases m with
    | nil => exact nomatch hv
    | cons y m =>
      have hnodup' := nodup_cons.mp hnodup
      have hy := (nodup_cons.mp (nodup_append.mp hnodup'.2).2.1).1
      rcases mem_append.mp hv with hmem | hmem
      . exact hy hmem
      . refine hnodup'.1 ?_
        rw [← mem_singleton.mp hmem]
        exact mem_append_right _ mem_cons_self
  . have hperm : (x :: head :: (l ++ m)).Perm (head :: (l ++ x :: m)) :=
      (List.Perm.swap head x (l ++ m)).trans (perm_middle.symm.cons head)
    exact hperm.nodup_iff.mp (nodup_cons.mpr ⟨hx, hnodup⟩)

theorem Ring.remove (h : Ring next prev head (l ++ x :: m))
    : Ring (update next (prev x) (next x)) (update prev (next x) (prev x)) head (l ++ m) := by
  constructor
  . rw [h.prev_eq]
    exact h.next.remove
  have hprev := h.prev
  rw [reverse_append, reverse_cons, append_assoc] at hprev
  have hremove := hprev.remove
  rw [getLast?_reverse] at hremove
  rw [h.next_eq, reverse_append]
  exact hremove

theorem Ring.concat (h : Ring next prev head l) (hx : x ∉ head :: l)
    : Ring (update (update next x head) (prev head) x)
      (update (update prev x (prev head)) head x) head (l ++ [x]) := by
  have hx' : x ∉ head :: l.reverse := by
    intro hmem
    refine hx ?_
    rcases mem_cons.mp hmem with rfl | hmem
    . exact mem_cons_self
    . exact mem_cons_of_mem _ (mem_reverse.mp hmem)
  constructor
  . have hnext := h.next
    rw [← append_nil l] at hnext hx
    have hlast := (round_append.mp hnext).1.2.2
    have hinsert := hnext.insert hx
    rw [hlast] at hinsert
    rw [h.prev_head]
    exact hinsert
  . have hprev := h.prev
    rw [← nil_append l.reverse] at hprev hx'
    rw [reverse_append]
    exact hprev.insert hx'

theorem Ring.cons (h : Ring next prev head l) (hx : x ∉ head :: l)
    : Ring (update (update next x (next head)) head x)
      (update (update prev (next head) x) x head) head (x :: l) := by
  have hx' : x ∉ head :: (l.reverse ++ []) := by
    intro hmem
    refine hx ?_
    rcases mem_cons.mp hmem with rfl | hmem
    . exact mem_cons_self
    . rw [append_nil] at hmem
      exact mem_cons_of_mem _ (mem_reverse.mp hmem)
  have hne : x ≠ next head := by
    rintro rfl
    refine hx ?_
    rw [h.next_head]
    cases l with
    | nil => exact mem_cons_self
    | cons y l => exact mem_cons_of_mem _ mem_cons_self
  constructor
  . have hnext := h.next
    rw [← nil_append l] at hnext hx
    exact hnext.insert hx
  have hprev := h.prev
  rw [← append_nil l.reverse] at hprev
  have hlast := (round_append.mp hprev).1.2.2
  have hinsert := hprev.insert hx'
  rw [hlast, getLast?_reverse, ← h.next_head] at hinsert
  rw [reverse_cons, update_comm hne.symm]
  exact hinsert

end LinkRing
