import MiniGui.Kernel.SyncMsg
import MiniGui.Library.Chain

namespace MiniGui

open Function List

open Chain

variable {τ : Type}

def nextOf (heap : SyncHeap τ) (syncMsg : Nat) : Option Nat :=
  (heap syncMsg).pNext

def Separated (p : Nat → Bool) : List Nat → Prop
  | [] => True
  | [a] => p a = false
  | a :: b :: l => ¬(p a = true ∧ p b = true) ∧ Separated p (b :: l)

def UnlinksAll (p : Nat → Bool) (l : List Nat) : Prop :=
  Separated p (l.dropWhile p)

theorem Separated.tail {p : Nat → Bool} {a : Nat} {l : List Nat} (h : Separated p (a :: l))
    : Separated p l := by
  cases l with
  | nil => trivial
  | cons b l => exact h.2

variable {l : List Nat} {p : Nat → Bool}

theorem Separated.next {a : Nat} (h : Separated p (a :: l)) (ha : p a = true)
    : ∃ b l', l = b :: l' ∧ p b = false := by
  cases l with
  | nil =>
    rw [Separated, ha] at h
    simp at h
  | cons b l =>
    refine ⟨b, l, rfl, ?_⟩
    rw [← Bool.not_eq_true]
    intro hb
    exact h.1 ⟨ha, hb⟩

structure Threw (p : Nat → Bool) (l : List Nat) (s r : ThrownSync τ) : Prop where
  posted : r.posted = s.posted ++ l.filter p
  canceled : ∀ m ∈ l, p m = true → (r.heap m).retval = ERR_MSG_CANCELED
  kept : ∀ m, ¬(m ∈ l ∧ p m = true) →
    (r.heap m).msg = (s.heap m).msg ∧ (r.heap m).retval = (s.heap m).retval
  semHandle : ∀ m, (r.heap m).semHandle = (s.heap m).semHandle

theorem Threw.refl (p : Nat → Bool) (s : ThrownSync τ) : Threw p [] s s := by
  constructor
  . simp
  . simp
  . intro m _
    exact ⟨rfl, rfl⟩
  . intro m
    rfl

theorem Threw.skip {a : Nat} {s r : ThrownSync τ} (h : Threw p l s r) (ha : p a = false)
    : Threw p (a :: l) s r := by
  constructor
  . rw [h.posted, filter_cons_of_neg]
    simp [ha]
  . intro m hm hp
    rcases mem_cons.mp hm with heq | hmem
    . rw [heq, ha] at hp
      simp at hp
    . apply h.canceled m hmem hp
  . intro m hm
    apply h.kept m
    rintro ⟨hmem, hp⟩
    exact hm ⟨mem_cons_of_mem a hmem, hp⟩
  . exact h.semHandle

theorem Threw.throw {a : Nat} {s s' r : ThrownSync τ}
    (h : Threw p l s' r) (ha : p a = true) (hal : a ∉ l) (hposted : s'.posted = s.posted ++ [a])
    (hretval : (s'.heap a).retval = ERR_MSG_CANCELED) (hkept : ∀ m, m ≠ a →
      (s'.heap m).msg = (s.heap m).msg ∧ (s'.heap m).retval = (s.heap m).retval)
    (hsem : ∀ m, (s'.heap m).semHandle = (s.heap m).semHandle)
    : Threw p (a :: l) s r := by
  constructor
  . rw [h.posted, hposted, filter_cons_of_pos ha, append_assoc]
    rfl
  . intro m hm hp
    rcases mem_cons.mp hm with heq | hmem
    . rw [heq]
      rw [(h.kept a (fun hc => hal hc.1)).2]
      exact hretval
    . apply h.canceled m hmem hp
  . intro m hm
    have hma : m ≠ a := by
      intro heq
      apply hm
      rw [heq]
      exact ⟨mem_cons_self, ha⟩
    have hkeep := h.kept m (fun hc => hm ⟨mem_cons_of_mem a hc.1, hc.2⟩)
    rw [hkeep.1, hkeep.2]
    apply hkept m hma
  . intro m
    rw [h.semHandle m, hsem m]

section Rounds

def cancelSync (heap : SyncHeap τ) (a : Nat) : SyncHeap τ :=
  update heap a
    { heap a with msg := { (heap a).msg with hwnd := HWND_INVALID }, retval := ERR_MSG_CANCELED }

def unlinkSync (heap : SyncHeap τ) (k a : Nat) : SyncHeap τ :=
  update (cancelSync heap a) k
    { cancelSync heap a k with pNext := (cancelSync heap a a).pNext }

variable {thrown : Hwnd → Bool} {fuel a k : Nat} {s : ThrownSync τ} {prev : Option Nat}

theorem throwAwaySync_none : throwAwaySync thrown fuel s none prev = s := by
  cases fuel <;> rfl

theorem throwAwaySync_keep (h : thrown (s.heap a).msg.hwnd = false)
    : throwAwaySync thrown (fuel + 1) s (some a) prev
        = throwAwaySync thrown fuel s (nextOf s.heap a) (some a) := by
  rw [throwAwaySync]
  rw [if_neg (by simp [h])]
  rfl

theorem throwAwaySync_first (h : thrown (s.heap a).msg.hwnd = true)
    : throwAwaySync thrown (fuel + 1) s (some a) none
        = throwAwaySync thrown fuel
            {
              heap := cancelSync s.heap a
              pFirstSyncMsg := nextOf (cancelSync s.heap a) a
              posted := s.posted ++ [a]
            } (nextOf (cancelSync s.heap a) a) none := by
  rw [throwAwaySync]
  rw [if_pos h]
  rfl

theorem throwAwaySync_unlink (h : thrown (s.heap a).msg.hwnd = true)
    : throwAwaySync thrown (fuel + 1) s (some a) (some k)
        = throwAwaySync thrown fuel
            { s with heap := unlinkSync s.heap k a, posted := s.posted ++ [a] }
            (nextOf (unlinkSync s.heap k a) a) (some a) := by
  rw [throwAwaySync]
  rw [if_pos h]
  rfl

theorem nextOf_cancelSync (heap : SyncHeap τ) (a : Nat)
    : nextOf (cancelSync heap a) = nextOf heap := by
  funext m
  unfold nextOf cancelSync
  by_cases hm : m = a
  . rw [hm, update_self]
  . rw [update_of_ne hm]

variable {heap : SyncHeap τ}

theorem cancelSync_of_ne {a m : Nat} (h : m ≠ a) : cancelSync heap a m = heap m := by
  apply update_of_ne h

theorem cancelSync_retval (heap : SyncHeap τ) (a : Nat)
    : (cancelSync heap a a).retval = ERR_MSG_CANCELED := by
  rw [cancelSync, update_self]

theorem cancelSync_semHandle (heap : SyncHeap τ) (a m : Nat)
    : (cancelSync heap a m).semHandle = (heap m).semHandle := by
  unfold cancelSync
  by_cases hm : m = a
  . rw [hm, update_self]
  . rw [update_of_ne hm]

theorem nextOf_unlinkSync (heap : SyncHeap τ) (k a : Nat)
    : nextOf (unlinkSync heap k a) = update (nextOf heap) k (nextOf heap a) := by
  have hcancel := nextOf_cancelSync heap a
  funext m
  unfold nextOf unlinkSync
  by_cases hm : m = k
  . rw [hm, update_self, update_self]
    apply congrFun hcancel a
  . rw [update_of_ne hm, update_of_ne hm]
    apply congrFun hcancel m

theorem unlinkSync_of_ne {k a m : Nat} (hk : m ≠ k)
    : unlinkSync heap k a m = cancelSync heap a m := by
  apply update_of_ne hk

theorem unlinkSync_fields (heap : SyncHeap τ) (k a m : Nat)
    : (unlinkSync heap k a m).msg = (cancelSync heap a m).msg
        ∧ (unlinkSync heap k a m).retval = (cancelSync heap a m).retval
        ∧ (unlinkSync heap k a m).semHandle = (cancelSync heap a m).semHandle := by
  by_cases hm : m = k
  . rw [hm, unlinkSync, update_self]
    exact ⟨rfl, rfl, rfl⟩
  . rw [unlinkSync_of_ne hm]
    exact ⟨rfl, rfl, rfl⟩

end Rounds

variable {thrown : Hwnd → Bool}

structure Unlinked (p : Nat → Bool) (stayed l : List Nat) (s r : ThrownSync τ) : Prop extends
    Threw p l s r where
  linked : Linked (nextOf r.heap) r.pFirstSyncMsg (stayed ++ l.filter (fun m => !p m))
  frame : ∀ m, m ∉ stayed ++ l → r.heap m = s.heap m

theorem throwAwaySync_tail (n fuel : Nat) {s : ThrownSync τ}
    {cur : Option Nat} (pre : List Nat) (k : Nat) (hn : l.length ≤ n) (hfuel : l.length ≤ fuel)
    (hpre : Seg (nextOf s.heap) s.pFirstSyncMsg (pre ++ [k]) cur)
    (hl : Linked (nextOf s.heap) cur l) (hnodup : (pre ++ [k] ++ l).Nodup)
    (hsep : Separated p l) (hp : ∀ m ∈ l, p m = thrown (s.heap m).msg.hwnd)
    : Unlinked p (pre ++ [k]) l s (throwAwaySync thrown fuel s cur (some k)) := by
  induction n generalizing fuel s cur pre k l with
  | zero =>
    have hnil : l = [] := by
      apply eq_nil_of_length_eq_zero
      omega
    rw [hnil] at hl ⊢
    rw [linked_nil] at hl
    rw [hl] at hpre ⊢
    rw [throwAwaySync_none]
    refine ⟨Threw.refl p s, ?_, fun _ _ => rfl⟩
    simpa [Linked] using hpre
  | succ n ih =>
    cases l with
    | nil =>
      rw [linked_nil] at hl
      rw [hl] at hpre ⊢
      rw [throwAwaySync_none]
      refine ⟨Threw.refl p s, ?_, fun _ _ => rfl⟩
      simpa [Linked] using hpre
    | cons a l =>
      rw [linked_cons] at hl
      rw [hl.1] at hpre ⊢
      rcases Nat.exists_eq_add_of_lt (Nat.lt_of_lt_of_le (Nat.succ_pos l.length) hfuel)
        with ⟨f, hf⟩
      rw [Nat.zero_add] at hf
      rw [hf]
      simp only [length_cons] at hn hfuel
      have hpa := hp a mem_cons_self
      cases hpa' : p a with
      | false =>
        rw [hpa'] at hpa
        rw [throwAwaySync_keep hpa.symm]
        have hstep := ih f (pre ++ [k]) a (by omega) (by omega) (seg_concat.mpr ⟨hpre, rfl⟩) hl.2
          (by simpa using hnodup) hsep.tail (fun m hm => hp m (mem_cons_of_mem a hm))
        refine ⟨hstep.toThrew.skip hpa', ?_, ?_⟩
        . rw [filter_cons_of_pos (by simp [hpa'])]
          simpa using hstep.linked
        . intro m hm
          apply hstep.frame
          simpa using hm
      | true =>
        rw [hpa'] at hpa
        rcases hsep.next hpa' with ⟨b, l', hlb, hpb⟩
        rw [hlb] at hl hnodup hsep hp hn hfuel ⊢
        simp only [length_cons] at hn hfuel
        rw [linked_cons] at hl
        have hmem : ∀ m ∈ pre ++ [k] ++ (a :: b :: l'), m = k → m ∉ pre ++ (a :: b :: l') := by
          intro m _ hm
          rw [hm]
          rw [append_assoc, nodup_append] at hnodup
          intro hin
          rcases mem_append.mp hin with hin | hin
          . exact hnodup.2.2 k hin k (by simp) rfl
          . exact (nodup_cons.mp hnodup.2.1).1 hin
        have hk : k ∉ pre ++ (a :: b :: l') := hmem k (by simp) rfl
        have hab : a ∉ b :: l' := by
          rw [nodup_append] at hnodup
          exact (nodup_cons.mp hnodup.2.1).1
        simp only [mem_append, mem_cons, not_or] at hk hab
        have hka : a ≠ k := fun heq => hk.2.1 heq.symm
        have hkb : b ≠ k := fun heq => hk.2.2.1 heq.symm
        have hba : b ≠ a := fun heq => hab.1 heq.symm
        rw [throwAwaySync_unlink hpa.symm]
        generalize hs1 : ({ s with
          heap := unlinkSync s.heap k a, posted := s.posted ++ [a] } : ThrownSync τ) = s1
        have hheap : s1.heap = unlinkSync s.heap k a := by
          rw [← hs1]
        have hfirst : s1.pFirstSyncMsg = s.pFirstSyncMsg := by
          rw [← hs1]
        have hnext : ∀ m, m ≠ k → nextOf s1.heap m = nextOf s.heap m := by
          intro m hm
          rw [hheap, nextOf_unlinkSync, update_of_ne hm]
        have hnextk : nextOf s1.heap k = some b := by
          rw [hheap, nextOf_unlinkSync, update_self]
          exact hl.2.1
        have hmsg : ∀ m, m ≠ a → (s1.heap m).msg = (s.heap m).msg
            ∧ (s1.heap m).retval = (s.heap m).retval := by
          intro m hm
          rw [hheap, (unlinkSync_fields s.heap k a m).1, (unlinkSync_fields s.heap k a m).2.1,
            cancelSync_of_ne hm]
          exact ⟨rfl, rfl⟩
        rw [← hheap, hnext a hka, hl.2.1]
        rcases Nat.exists_eq_add_of_lt (show 0 < f by omega) with ⟨g, hg⟩
        rw [Nat.zero_add] at hg
        rw [hg]
        have hpb1 : thrown (s1.heap b).msg.hwnd = false := by
          rw [(hmsg b hba).1, ← hp b (by simp)]
          exact hpb
        rw [throwAwaySync_keep hpb1]
        have hseg : Seg (nextOf s1.heap) s1.pFirstSyncMsg (pre ++ [k] ++ [b]) (nextOf s1.heap b) := by
          rw [hfirst]
          refine seg_concat.mpr ⟨seg_concat.mpr ⟨?_, hnextk⟩, rfl⟩
          have hcongr : ∀ m ∈ pre, nextOf s1.heap m = nextOf s.heap m := by
            intro m hm
            apply hnext
            intro heq
            rw [heq] at hm
            exact hk.1 hm
          rw [Seg.congr hcongr]
          exact (seg_concat.mp hpre).1
        have hlink : Linked (nextOf s1.heap) (nextOf s1.heap b) l' := by
          rw [hnext b hkb]
          have hcongr : ∀ m ∈ l', nextOf s1.heap m = nextOf s.heap m := by
            intro m hm
            apply hnext
            intro heq
            rw [heq] at hm
            exact hk.2.2.2 hm
          rw [Linked.congr hcongr]
          exact hl.2.2
        have hnodup1 : (pre ++ [k] ++ [b] ++ l').Nodup := by
          apply Nodup.sublist _ hnodup
          rw [append_assoc (pre ++ [k])]
          apply Sublist.append_left
          apply sublist_cons_self
        have hp1 : ∀ m ∈ l', p m = thrown (s1.heap m).msg.hwnd := by
          intro m hm
          have hma : m ≠ a := by
            intro heq
            rw [heq] at hm
            exact hab.2 hm
          rw [(hmsg m hma).1]
          apply hp m
          simp [hm]
        have hstep := ih g (pre ++ [k]) b (by omega) (by omega) hseg hlink hnodup1
          hsep.tail.tail hp1
        constructor
        . apply (hstep.toThrew.skip hpb).throw hpa'
          . simp [hab]
          . rw [← hs1]
          . rw [hheap, (unlinkSync_fields s.heap k a a).2.1, cancelSync_retval]
          . exact hmsg
          . intro m
            rw [hheap, (unlinkSync_fields s.heap k a m).2.2, cancelSync_semHandle]
        . rw [filter_cons_of_neg (by simp [hpa']), filter_cons_of_pos (by simp [hpb])]
          simpa using hstep.linked
        . intro m hm
          simp only [mem_append, mem_cons, not_mem_nil, or_false, not_or] at hm
          rw [hstep.frame m (by simp [hm]), hheap, unlinkSync_of_ne hm.1.2, cancelSync_of_ne hm.2.1]

theorem throwAwaySync_head (fuel : Nat) (s : ThrownSync τ)
    (hfuel : l.length ≤ fuel) (hl : Linked (nextOf s.heap) s.pFirstSyncMsg l)
    (hsep : UnlinksAll p l) (hp : ∀ m ∈ l, p m = thrown (s.heap m).msg.hwnd)
    : Unlinked p [] l s (throwAwaySync thrown fuel s s.pFirstSyncMsg none) := by
  induction l generalizing fuel s with
  | nil =>
    rw [linked_nil] at hl
    rw [hl, throwAwaySync_none]
    exact ⟨Threw.refl p s, hl, fun _ _ => rfl⟩
  | cons a l ih =>
    have hnodup := hl.nodup
    rw [nodup_cons] at hnodup
    have hcur := (linked_cons.mp hl).1
    have hrest := (linked_cons.mp hl).2
    rcases Nat.exists_eq_add_of_lt (Nat.lt_of_lt_of_le (Nat.succ_pos l.length) hfuel)
      with ⟨f, hf⟩
    rw [Nat.zero_add] at hf
    rw [hcur, hf]
    simp only [length_cons] at hfuel
    have hpa := hp a mem_cons_self
    cases hpa' : p a with
    | false =>
      rw [hpa'] at hpa
      rw [throwAwaySync_keep hpa.symm]
      rw [UnlinksAll, dropWhile_cons_of_neg (by simp [hpa'])] at hsep
      have hseg : Seg (nextOf s.heap) s.pFirstSyncMsg ([] ++ [a]) (nextOf s.heap a) := by
        rw [hcur]
        exact ⟨rfl, rfl⟩
      have htail := throwAwaySync_tail l.length f [] a le_rfl (by omega) hseg hrest
        (by simpa using hnodup) hsep.tail (fun m hm => hp m (mem_cons_of_mem a hm))
      refine ⟨htail.toThrew.skip hpa', ?_, ?_⟩
      . rw [filter_cons_of_pos (by simp [hpa'])]
        simpa using htail.linked
      . intro m hm
        apply htail.frame
        simpa using hm
    | true =>
      rw [hpa'] at hpa
      rw [throwAwaySync_first hpa.symm, nextOf_cancelSync]
      rw [UnlinksAll, dropWhile_cons_of_pos hpa'] at hsep
      have hne : ∀ m ∈ l, m ≠ a := by
        intro m hm heq
        rw [heq] at hm
        exact hnodup.1 hm
      have hlink : Linked (nextOf (cancelSync s.heap a)) (nextOf s.heap a) l := by
        rw [nextOf_cancelSync]
        exact hrest
      have hp1 : ∀ m ∈ l, p m = thrown (cancelSync s.heap a m).msg.hwnd := by
        intro m hm
        rw [cancelSync_of_ne (hne m hm)]
        apply hp m (mem_cons_of_mem a hm)
      have hstep := ih f ⟨cancelSync s.heap a, nextOf s.heap a, s.posted ++ [a]⟩ (by omega) hlink hsep
        hp1
      constructor
      . apply hstep.toThrew.throw hpa' hnodup.1 rfl
        . apply cancelSync_retval
        . intro m hm
          dsimp only
          rw [cancelSync_of_ne hm]
          exact ⟨rfl, rfl⟩
        . intro m
          apply cancelSync_semHandle
      . rw [filter_cons_of_neg (by simp [hpa'])]
        exact hstep.linked
      intro m hm
      simp only [nil_append, mem_cons, not_or] at hm
      rw [hstep.frame m (by simp [hm])]
      apply cancelSync_of_ne hm.1

end MiniGui
