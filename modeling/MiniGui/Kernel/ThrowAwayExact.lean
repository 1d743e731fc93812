import MiniGui.Kernel.PostRing
import MiniGui.Kernel.WakeFlags

namespace MiniGui

open Function List Ring

open Chain

variable {τ : Type}

section Stay

def stay (p : Nat → Bool) : Bool → List Nat → List Nat
  | _, [] => []
  | attached, a :: l =>
    if p a && attached then stay p false l else a :: stay p true l

def IsPrev (attached : Bool) (linked l : List Nat) (prev : Nat) : Prop :=
  if attached then ∃ before, linked = before ++ [prev] else prev ∉ linked ++ l

variable {thrown : Hwnd → Bool} {p : Nat → Bool} {attached : Bool} {linked l : List Nat} {prev a fuel : Nat}
  {s : ThrownSync τ} {cur : Option Nat}

theorem nextOf_unlinkSync_of_ne (heap : SyncHeap τ) {k a m : Nat} (h : m ≠ k)
    : nextOf (unlinkSync heap k a) m = nextOf heap m := by
  rw [nextOf_unlinkSync, update_of_ne h]

theorem unlinkSync_hwnd (heap : SyncHeap τ) (k : Nat) {a m : Nat} (h : m ≠ a)
    : (unlinkSync heap k a m).msg = (heap m).msg := by
  rw [(unlinkSync_fields heap k a m).1, cancelSync_of_ne h]

theorem throwAwaySync_stay (hfuel : l.length ≤ fuel) (hseg : Seg (nextOf s.heap) s.pFirstSyncMsg linked cur)
    (hlinked : Linked (nextOf s.heap) cur l) (hnodup : (linked ++ l).Nodup) (hprev : IsPrev attached linked l prev)
    (hp : ∀ m ∈ l, p m = thrown (s.heap m).msg.hwnd)
    : Linked (nextOf (throwAwaySync thrown fuel s cur (some prev)).heap)
        (throwAwaySync thrown fuel s cur (some prev)).pFirstSyncMsg (linked ++ stay p attached l) := by
  induction l generalizing fuel s cur linked prev attached with
  | nil =>
    rw [linked_nil] at hlinked
    rw [hlinked] at hseg ⊢
    rw [throwAwaySync_none, stay, append_nil]
    exact hseg
  | cons a l ih =>
    rw [linked_cons] at hlinked
    obtain ⟨hcur, hrest⟩ := hlinked
    rw [hcur] at hseg ⊢
    obtain ⟨f, hf⟩ := Nat.exists_eq_add_of_lt (Nat.lt_of_lt_of_le (Nat.succ_pos l.length) hfuel)
    rw [Nat.zero_add] at hf
    rw [hf]
    rw [length_cons] at hfuel
    have hpa := hp a mem_cons_self
    obtain ⟨hlinkedNodup, hlNodup, hdisjoint⟩ := nodup_append.mp hnodup
    rw [nodup_cons] at hlNodup
    have haNot : a ∉ linked := fun hmem => hdisjoint a hmem a mem_cons_self rfl
    have hnext : (linked ++ [a] ++ l).Nodup := by
      rw [append_assoc]
      exact hnodup
    have hlast : IsPrev true (linked ++ [a]) l a := ⟨linked, rfl⟩
    cases hpa' : p a with
    | false =>
      rw [hpa'] at hpa
      rw [throwAwaySync_keep hpa.symm, stay, hpa', Bool.false_and, if_neg (by decide), ← singleton_append,
        ← append_assoc]
      exact ih (by omega) (seg_concat.mpr ⟨hseg, rfl⟩) hrest hnext hlast
        (fun m hm => hp m (mem_cons_of_mem a hm))
    | true =>
      rw [hpa'] at hpa
      have hprevNot : prev ∉ l ∧ prev ≠ a := by
        unfold IsPrev at hprev
        split at hprev
        . obtain ⟨before, hbefore⟩ := hprev
          have hmem : prev ∈ linked := by
            rw [hbefore]
            exact mem_append_right before mem_cons_self
          refine ⟨fun hin => hdisjoint prev hmem prev (mem_cons_of_mem a hin) rfl, ?_⟩
          intro heq
          rw [heq] at hmem
          exact haNot hmem
        . rw [mem_append, mem_cons, not_or, not_or] at hprev
          exact ⟨hprev.2.2, hprev.2.1⟩
      rw [throwAwaySync_unlink hpa.symm, nextOf_unlinkSync_of_ne s.heap (Ne.symm hprevNot.2)]
      have hlinkedRest : Linked (nextOf (unlinkSync s.heap prev a)) (nextOf s.heap a) l := by
        refine (Linked.congr ?_).mpr hrest
        intro m hm
        apply nextOf_unlinkSync_of_ne
        intro heq
        rw [heq] at hm
        exact hprevNot.1 hm
      have hpRest : ∀ m ∈ l, p m = thrown (unlinkSync s.heap prev a m).msg.hwnd := by
        intro m hm
        rw [unlinkSync_hwnd]
        . exact hp m (mem_cons_of_mem a hm)
        . intro heq
          rw [heq] at hm
          exact hlNodup.1 hm
      cases attached with
      | true =>
        -- The record is taken out, and becomes the previous one.
        rw [stay, hpa', Bool.true_and, if_pos rfl]
        obtain ⟨before, hbefore⟩ := hprev
        refine ih (by omega) ?_ hlinkedRest ?_ ?_ hpRest
        . rw [hbefore] at hseg hlinkedNodup ⊢
          rw [seg_concat] at hseg ⊢
          rw [nodup_append] at hlinkedNodup
          refine ⟨(Seg.congr ?_).mpr hseg.1, ?_⟩
          . intro m hm
            apply nextOf_unlinkSync_of_ne
            intro heq
            exact hlinkedNodup.2.2 m hm prev mem_cons_self heq
          . rw [nextOf_unlinkSync, update_self]
        . exact hnodup.sublist (Sublist.append_left (sublist_cons_self a l) linked)
        . rw [IsPrev, if_neg (by decide), mem_append, not_or]
          exact ⟨haNot, hlNodup.1⟩
      | false =>
        -- Only the record that has been taken out before is changed: this one stays linked.
        rw [stay, hpa', Bool.and_false, if_neg (by decide), append_cons linked a]
        rw [IsPrev, if_neg (by decide), mem_append, not_or] at hprev
        refine ih (by omega) ?_ hlinkedRest hnext hlast hpRest
        refine seg_concat.mpr ⟨(Seg.congr ?_).mpr hseg, ?_⟩
        . intro m hm
          apply nextOf_unlinkSync_of_ne
          intro heq
          rw [heq] at hm
          exact hprev.1 hm
        . exact nextOf_unlinkSync_of_ne s.heap (Ne.symm hprevNot.2)

variable (thrown) in
theorem throwAwaySync_chain (hfuel : l.length ≤ fuel) (hlinked : Linked (nextOf s.heap) s.pFirstSyncMsg l)
    (hp : ∀ m ∈ l, p m = thrown (s.heap m).msg.hwnd)
    : Linked (nextOf (throwAwaySync thrown fuel s s.pFirstSyncMsg none).heap)
        (throwAwaySync thrown fuel s s.pFirstSyncMsg none).pFirstSyncMsg (stay p true (l.dropWhile p)) := by
  induction l generalizing fuel s with
  | nil =>
    rw [linked_nil] at hlinked
    rw [hlinked, throwAwaySync_none]
    exact hlinked
  | cons a l ih =>
    have hnodup := hlinked.nodup
    rw [linked_cons] at hlinked
    obtain ⟨hcur, hrest⟩ := hlinked
    obtain ⟨f, hf⟩ := Nat.exists_eq_add_of_lt (Nat.lt_of_lt_of_le (Nat.succ_pos l.length) hfuel)
    rw [Nat.zero_add] at hf
    rw [hcur, hf]
    rw [length_cons] at hfuel
    have hpa := hp a mem_cons_self
    cases hpa' : p a with
    | false =>
      rw [hpa'] at hpa
      rw [throwAwaySync_keep hpa.symm, dropWhile_cons_of_neg (by simp [hpa']), stay, hpa', Bool.false_and,
        if_neg (by decide)]
      exact throwAwaySync_stay (by omega) (show Seg (nextOf s.heap) s.pFirstSyncMsg [a] (nextOf s.heap a) from ⟨hcur, rfl⟩) hrest hnodup
        ⟨[], rfl⟩
        (fun m hm => hp m (mem_cons_of_mem a hm))
    | true =>
      rw [hpa'] at hpa
      rw [throwAwaySync_first hpa.symm, dropWhile_cons_of_pos hpa', nextOf_cancelSync]
      have hne : ∀ m ∈ l, m ≠ a := by
        intro m hm heq
        rw [heq] at hm
        exact (nodup_cons.mp hnodup).1 hm
      refine ih (s := ⟨cancelSync s.heap a, nextOf s.heap a, s.posted ++ [a]⟩) (by omega) ?_ ?_
      . rw [nextOf_cancelSync]
        exact hrest
      intro m hm
      dsimp only
      rw [cancelSync_of_ne (hne m hm)]
      exact hp m (mem_cons_of_mem a hm)

theorem separated_of_stay (h : stay p true l = l.filter fun m => !p m) (hlast : ∀ m, l.getLast? = some m → p m = false)
    : Separated p l := by
  induction l with
  | nil => trivial
  | cons a l ih =>
    cases l with
    | nil => exact hlast a rfl
    | cons b l =>
      have hlastTail : ∀ m, (b :: l).getLast? = some m → p m = false := by
        intro m hm
        apply hlast
        rw [getLast?_cons_cons]
        exact hm
      cases hpa : p a with
      | false =>
        rw [stay, hpa, Bool.false_and, if_neg (by decide), filter_cons_of_pos (by simp [hpa]), List.cons.injEq] at h
        refine ⟨?_, ih h.2 hlastTail⟩
        rw [hpa]
        exact fun hboth => absurd hboth.1 (by decide)
      | true =>
        rw [stay, hpa, Bool.true_and, if_pos rfl, filter_cons_of_neg (by simp [hpa]), stay, Bool.and_false,
          if_neg (by decide)] at h
        cases hpb : p b with
        | true =>
          -- The second one of two that are thrown away stays linked.
          have hmem : b ∈ (b :: l).filter fun m => !p m := by
            rw [← h]
            exact mem_cons_self
          rw [mem_filter, hpb] at hmem
          exact absurd hmem.2 (by decide)
        | false =>
          refine ⟨fun hboth => absurd hboth.2 (by rw [hpb]; decide), ih ?_ hlastTail⟩
          rw [stay, hpb, Bool.false_and, if_neg (by decide)]
          exact h

end Stay

section Posted

variable {thrown : Hwnd → Bool} {q : MsgQueue}

variable (thrown) in
theorem throwAwayPosted_slots (hw : q.writepos < q.len) {readpos fuel n : Nat} {msg : Nat → Msg} (hr : readpos < q.len)
    (hfuel : (slots q.len readpos q.writepos).length ≤ fuel)
    : throwAwayPosted thrown q fuel readpos msg n
        = (n + ((slots q.len readpos q.writepos).map msg).countP (fun pMsg => thrown pMsg.hwnd),
            fun i => if i ∈ slots q.len readpos q.writepos then throwAwayMsg thrown (msg i) else msg i) := by
  induction fuel generalizing readpos msg n with
  | zero =>
    have hnil := eq_nil_of_length_eq_zero (Nat.le_zero.mp hfuel)
    rw [hnil]
    rfl
  | succ fuel ih =>
    rw [throwAwayPosted]
    by_cases heq : readpos = q.writepos
    . rw [if_pos heq, heq, slots_self]
      rfl
    have hnext : (if readpos + 1 ≥ q.len then 0 else readpos + 1) = (readpos + 1) % q.len := by
      rw [succ_mod hr]
      split <;> split <;> omega
    have hslots := slots_cons hr hw heq
    have hnodup := nodup_slots hr hw
    rw [hslots] at hfuel hnodup ⊢
    rw [length_cons] at hfuel
    have hfresh := (nodup_cons.mp hnodup).1
    rw [if_neg heq, hnext, ih (Nat.mod_lt _ (by omega)) (by omega), Prod.mk.injEq]
    constructor
    . have hmap : (slots q.len ((readpos + 1) % q.len) q.writepos).map
          (update msg readpos (throwAwayMsg thrown (msg readpos)))
            = (slots q.len ((readpos + 1) % q.len) q.writepos).map msg := by
        apply map_congr_left
        intro i hi
        apply update_of_ne
        intro hsame
        rw [hsame] at hi
        exact hfresh hi
      rw [hmap, map_cons, countP_cons]
      split <;> omega
    funext i
    by_cases hi : i = readpos
    . rw [hi, if_neg hfresh, update_self, if_pos mem_cons_self]
    . rw [update_of_ne hi]
      simp only [mem_cons, hi, false_or]

variable (thrown) in
theorem throwAwayPosted_pending (hq : q.RingOk) {q' : MsgQueue} (hlen : q'.len = q.len) (hwrite : q'.writepos = q.writepos)
    : throwAwayPosted thrown q' q.len q.readpos q.msg 0
        = (q.pending.countP fun pMsg => thrown pMsg.hwnd, fun i => if i ∈ q.slots then throwAwayMsg thrown (q.msg i) else q.msg i) := by
  have hw : q'.writepos < q'.len := by
    rw [hlen, hwrite]
    exact hq.writepos_lt
  have hr : q.readpos < q'.len := by
    rw [hlen]
    exact hq.readpos_lt
  rw [throwAwayPosted_slots thrown hw hr, hlen, hwrite, Nat.zero_add]
  . rfl
  . rw [hlen, hwrite]
    exact Nat.le_of_lt (length_slots_lt hq.readpos_lt)

end Posted

section Exact

variable {κ : Type} {thrown : Hwnd → Bool}

structure SyncListed (q : MsgQueue) (heap : SyncHeap τ) (l : List Nat) : Prop where
  linked : Linked (nextOf heap) q.pFirstSyncMsg l
  last : l ≠ [] → q.pLastSyncMsg = l.getLast?
  ring : q.RingOk

def thrownSync (thrown : Hwnd → Bool) (heap : SyncHeap τ) (m : Nat) : Bool :=
  thrown (heap m).msg.hwnd

structure ThrowsExactly (thrown : Hwnd → Bool) (q : MsgQueue) (heap : SyncHeap τ) (l : List Nat)
    (r : Nat × MsgQueue × ThrownSync τ) : Prop where
  listed : SyncListed r.2.1 r.2.2.heap (l.filter fun m => !thrownSync thrown heap m)
  kept : ∀ m ∈ l, thrownSync thrown heap m = false → (r.2.2.heap m).msg = (heap m).msg ∧ (r.2.2.heap m).retval = (heap m).retval
  canceled : ∀ m ∈ l, thrownSync thrown heap m = true → (r.2.2.heap m).retval = ERR_MSG_CANCELED
  senders : ∀ m, (r.2.2.heap m).semHandle = (heap m).semHandle
  posted : r.2.2.posted = l.filter (thrownSync thrown heap) ∧ r.2.2.posted.Nodup
  appended : ∀ m, m ∉ l → (r.2.2.heap m).pNext = none →
    SyncListed (queueSyncMsg r.2.1 r.2.2.heap m).1 (queueSyncMsg r.2.1 r.2.2.heap m).2
      ((l.filter fun m => !thrownSync thrown heap m) ++ [m])
  notify : r.2.1.notifyMsgs = q.notifyMsgs.map (throwAwayMsg thrown)
  pending : r.2.1.pending = q.pending.map (throwAwayMsg thrown)
  count : r.1 = q.notifyMsgs.countP (fun pMsg => thrown pMsg.hwnd) + (l.filter (thrownSync thrown heap)).length
    + q.pending.countP fun pMsg => thrown pMsg.hwnd

theorem SyncListed.queueSyncMsg {q : MsgQueue} {heap : SyncHeap τ} {l : List Nat} (h : SyncListed q heap l) {m : Nat}
    (hm : m ∉ l) (hnext : (heap m).pNext = none)
    : SyncListed (MiniGui.queueSyncMsg q heap m).1 (MiniGui.queueSyncMsg q heap m).2 (l ++ [m]) := by
  have hlast : ∀ l' : List Nat, l' ++ [m] ≠ [] → some m = (l' ++ [m]).getLast? := by
    intro l' _
    rw [getLast?_concat]
  have hringOf : (MiniGui.queueSyncMsg q heap m).1.RingOk := by
    unfold MiniGui.queueSyncMsg
    split
    . exact ⟨h.ring.readpos_lt, h.ring.writepos_lt⟩
    . exact ⟨h.ring.readpos_lt, h.ring.writepos_lt⟩
  by_cases hnil : l = []
  . have hfirst : q.pFirstSyncMsg = none := h.linked.eq_nil_iff.mp hnil
    obtain ⟨hfirst', hlast', hheap⟩ := queueSyncMsg_first heap m hfirst
    refine ⟨?_, ?_, hringOf⟩
    . rw [hnil, hfirst', hheap]
      exact linked_cons.mpr ⟨rfl, linked_nil.mpr hnext⟩
    . rw [hlast']
      exact hlast l
  have hfirst : q.pFirstSyncMsg ≠ none := fun hnone => hnil (h.linked.eq_nil_iff.mpr hnone)
  obtain ⟨before, last, hl⟩ := (eq_nil_or_concat' l).resolve_left hnil
  have hq : q.pLastSyncMsg = some last := by
    rw [h.last hnil, hl, getLast?_concat]
  obtain ⟨hfirst', hlast', hheap⟩ := queueSyncMsg_next heap m hfirst hq
  refine ⟨?_, ?_, hringOf⟩
  . have hnextOf : nextOf (update heap last { heap last with pNext := some m })
        = update (nextOf heap) last (some m) := by
      funext i
      unfold nextOf
      by_cases hi : i = last
      . rw [hi, update_self, update_self]
      . rw [update_of_ne hi, update_of_ne hi]
    have hlinked := h.linked
    rw [hl] at hlinked hm ⊢
    rw [hfirst', hheap, hnextOf]
    exact hlinked.concat hnext hm
  . rw [hlast']
    exact hlast l

variable {q : MsgQueue} {heap : SyncHeap τ} {l : List Nat} {timerstr : TimerTable κ} {fuel : Nat}

variable (thrown heap timerstr fuel) in
theorem throwAwayMessages_fields (hring : q.RingOk)
    : (throwAwayMessages thrown q heap timerstr fuel).2.2
          = throwAwaySync thrown fuel ⟨heap, q.pFirstSyncMsg, []⟩ q.pFirstSyncMsg none
        ∧ (throwAwayMessages thrown q heap timerstr fuel).2.1.pFirstSyncMsg
          = (throwAwayMessages thrown q heap timerstr fuel).2.2.pFirstSyncMsg
        ∧ (throwAwayMessages thrown q heap timerstr fuel).2.1.pLastSyncMsg = q.pLastSyncMsg
        ∧ (throwAwayMessages thrown q heap timerstr fuel).2.1.RingOk
        ∧ (throwAwayMessages thrown q heap timerstr fuel).2.1.notifyMsgs = q.notifyMsgs.map (throwAwayMsg thrown)
        ∧ (throwAwayMessages thrown q heap timerstr fuel).2.1.pending = q.pending.map (throwAwayMsg thrown)
        ∧ (throwAwayMessages thrown q heap timerstr fuel).1
          = q.notifyMsgs.countP (fun pMsg => thrown pMsg.hwnd)
            + (throwAwayMessages thrown q heap timerstr fuel).2.2.posted.length
            + q.pending.countP fun pMsg => thrown pMsg.hwnd := by
  unfold throwAwayMessages
  dsimp only
  rw [throwAwayPosted_pending thrown hring]
  . generalize hq : (MsgQueue.mk _ _ _ _ _ _ _ _ _ _ _) = q'
    obtain ⟨timerMask, heq⟩ := throwAwayTimers_fields thrown timerstr (List.range DEF_NR_TIMERS) q'
    rw [heq, ← hq]
    refine ⟨rfl, rfl, rfl, ⟨hring.readpos_lt, hring.writepos_lt⟩, rfl, ?_, rfl⟩
    unfold MsgQueue.pending
    rw [List.map_map]
    apply map_congr_left
    intro i hi
    exact if_pos hi
  . rfl
  . rfl

theorem Separated.getLast? {p : Nat → Bool} (h : Separated p l) {m : Nat} (hm : l.getLast? = some m) : p m = false := by
  induction l with
  | nil => cases hm
  | cons a l ih =>
    cases l with
    | nil =>
      rw [getLast?_singleton, Option.some.injEq] at hm
      rw [← hm]
      exact h
    | cons b l =>
      rw [getLast?_cons_cons] at hm
      exact ih h.2 hm

theorem getLast?_dropWhile {p : Nat → Bool} {m : Nat} (hm : (l.dropWhile p).getLast? = some m) : l.getLast? = some m := by
  have hsplit := takeWhile_append_dropWhile (p := p) (l := l)
  rw [← hsplit, getLast?_append, hm]
  rfl

theorem filter_dropWhile (p : Nat → Bool) (l : List Nat)
    : (l.dropWhile p).filter (fun m => !p m) = l.filter fun m => !p m := by
  induction l with
  | nil => rfl
  | cons a l ih =>
    cases hpa : p a with
    | true => rw [dropWhile_cons_of_pos hpa, ih, filter_cons_of_neg (by simp [hpa])]
    | false => rw [dropWhile_cons_of_neg (by simp [hpa])]

theorem getLast?_filter {f : Nat → Bool} {m : Nat} (hm : l.getLast? = some m) (hf : f m = true)
    : (l.filter f).getLast? = some m := by
  obtain ⟨before, hl⟩ := getLast?_eq_some_iff.mp hm
  rw [hl, filter_append, filter_cons_of_pos hf, filter_nil, getLast?_concat]

end Exact

def fourSync : SyncHeap Unit
  | 0 => { msg := { Msg.zero with hwnd := 2 }, retval := 0, semHandle := (), pNext := some 1 }
  | 1 => { msg := { Msg.zero with hwnd := 1 }, retval := 0, semHandle := (), pNext := some 2 }
  | 2 => { msg := { Msg.zero with hwnd := 1 }, retval := 0, semHandle := (), pNext := some 3 }
  | _ => { msg := { Msg.zero with hwnd := 2 }, retval := 0, semHandle := (), pNext := none }

def fourQueue (first : Nat) : MsgQueue :=
  { initMsgQueue 4 with pFirstSyncMsg := some first, pLastSyncMsg := some 3 }

theorem fourQueue_listed : SyncListed (fourQueue 0) fourSync [0, 1, 2, 3] :=
  ⟨⟨rfl, rfl, rfl, rfl, rfl⟩, fun _ => rfl, ⟨by decide, by decide⟩⟩

theorem fourQueue_listed_first : SyncListed (fourQueue 1) fourSync [1, 2, 3] :=
  ⟨⟨rfl, rfl, rfl, rfl⟩, fun _ => rfl, ⟨by decide, by decide⟩⟩

end MiniGui
