import MiniGui.Kernel.TimerFairness
import MiniGui.Library.Reach

namespace MiniGui

open Function List

open Bits (has)

variable {κ τ : Type}

namespace Timer

def key (t : Timer κ) : Hwnd × Int × κ :=
  (t.hWnd, t.id, t.msgQueue)

end Timer

def Owned (s : TimerState κ) : Prop :=
  ∀ q k, Bits.has (s.queues q).timerMask k = true → ∃ t, s.timerstr k = some t ∧ t.msgQueue = q

def Unique (timerstr : TimerTable κ) : Prop :=
  ∀ i j t u, i < DEF_NR_TIMERS → j < DEF_NR_TIMERS → timerstr i = some t → timerstr j = some u →
    t.hWnd = u.hWnd → t.id = u.id → i = j

def SameKeys (a b : TimerTable κ) : Prop :=
  ∀ k, (a k).map Timer.key = (b k).map Timer.key

def SameFirst (a b : κ → MsgQueue) : Prop :=
  ∀ q, (a q).firstTimerSlot = (b q).firstTimerSlot

theorem sameFirst_update [DecidableEq κ] {queues : κ → MsgQueue} {q : κ} {queue : MsgQueue}
    (h : queue.firstTimerSlot = (queues q).firstTimerSlot)
    : SameFirst (update queues q queue) queues := by
  intro q'
  by_cases hq : q' = q
  . rw [hq, update_self]
    exact h
  . rw [update_of_ne hq]

theorem SameKeys.refl (a : TimerTable κ) : SameKeys a a := by
  intro k
  rfl

variable {a : TimerTable κ} {k : Nat} {s : TimerState κ} {t : PeekState κ}

theorem SameKeys.symm {b : TimerTable κ} (h : SameKeys a b) : SameKeys b a := by
  intro k
  rw [h k]

theorem SameKeys.trans {b c : TimerTable κ} (h1 : SameKeys a b) (h2 : SameKeys b c)
    : SameKeys a c := by
  intro k
  rw [h1 k, h2 k]

theorem SameKeys.some {b : TimerTable κ} (h : SameKeys a b) {t : Timer κ} (hk : b k = some t)
    : ∃ u, a k = some u ∧ u.hWnd = t.hWnd ∧ u.id = t.id ∧ u.msgQueue = t.msgQueue := by
  have hkey := h k
  rw [hk, Option.map_some, Option.map_eq_some_iff] at hkey
  rcases hkey with ⟨u, hu, heq⟩
  simp only [Timer.key, Prod.mk.injEq] at heq
  exact ⟨u, hu, heq⟩

theorem sameKeys_update {t u : Timer κ} (hk : a k = some t) (hkey : u.key = t.key)
    : SameKeys (update a k (some u)) a := by
  intro j
  by_cases hj : j = k
  . rw [hj, hk]
    simp [hkey]
  . rw [update_of_ne hj]

theorem Unique.of_sameKeys {b : TimerTable κ} (hu : Unique a) (h : SameKeys a b) : Unique b := by
  intro i j t u hi hj ht hu' hwnd hid
  rcases h.some ht with ⟨t', ht', hwnd1, hid1, _⟩
  rcases h.some hu' with ⟨u', hu', hwnd2, hid2, _⟩
  apply hu i j t' u' hi hj ht' hu'
  . rw [hwnd1, hwnd2, hwnd]
  . rw [hid1, hid2, hid]

theorem Unique.of_subset {b : TimerTable κ} (hu : Unique a) (h : ∀ k t, b k = some t → a k = some t)
    : Unique b := by
  intro i j t u hi hj ht hu' hwnd hid
  apply hu i j t u hi hj (h i t ht) (h j u hu') hwnd hid

theorem Owned.of_sameKeys {s' : TimerState κ} (h : Owned s)
    (hkeys : SameKeys s'.timerstr s.timerstr)
    (hbits : ∀ q k, has (s'.queues q).timerMask k = true →
      has (s.queues q).timerMask k = true)
    : Owned s' := by
  intro q k hbit
  rcases h q k (hbits q k hbit) with ⟨t, ht, hq⟩
  rcases hkeys.some ht with ⟨u, hu, _, _, hmsgQueue⟩
  exact ⟨u, hu, by rw [hmsgQueue, hq]⟩

section Operations

variable {hWnd : Hwnd} {id : Int} {l : List Nat} {timerstr : TimerTable κ} {i : Nat}

theorem setTimerLoop_spec {slot : Option Nat} {res : Option Nat}
    (h : setTimerLoop timerstr hWnd id l slot = some res)
    : (∀ i ∈ l, ∀ t, timerstr i = some t → ¬(t.hWnd = hWnd ∧ t.id = id))
        ∧ (∀ k, res = some k → slot = some k ∨ k ∈ l ∧ timerstr k = none) := by
  induction l generalizing slot with
  | nil =>
    rw [setTimerLoop, Option.some.injEq] at h
    simp [h]
  | cons i rest ih =>
    rw [setTimerLoop] at h
    split at h
    . next hi =>
      rcases ih h with ⟨h1, h2⟩
      constructor
      . intro j hj t ht
        rcases mem_cons.mp hj with heq | hmem
        . rw [heq, hi] at ht
          simp at ht
        . apply h1 j hmem t ht
      intro k hk
      rcases h2 k hk with hslot | hrest
      . split at hslot
        . apply Or.inr
          rw [Option.some.injEq] at hslot
          rw [← hslot]
          exact ⟨mem_cons_self, hi⟩
        . apply Or.inl hslot
      . exact .inr ⟨mem_cons_of_mem i hrest.1, hrest.2⟩
    rename_i t hi
    split at h
    . simp at h
    rename_i hother
    rcases ih h with ⟨h1, h2⟩
    constructor
    . intro j hj u hu
      rcases mem_cons.mp hj with heq | hmem
      . rw [heq, hi, Option.some.injEq] at hu
        rw [← hu]
        simpa [isTimer] using hother
      . apply h1 j hmem u hu
    intro k hk
    rcases h2 k hk with hslot | hrest
    . apply Or.inl hslot
    . exact .inr ⟨mem_cons_of_mem i hrest.1, hrest.2⟩

def IsKilled (t : Timer κ) (hWnd : Hwnd) (id : Int) : Prop :=
  t.hWnd = hWnd ∧ (id ≤ 0 ∨ t.id = id)

theorem IsKilled.slot_eq (hu : Unique timerstr)
    (hid : id > 0) {j : Nat} {t u : Timer κ} (hi : i < DEF_NR_TIMERS) (hj : j < DEF_NR_TIMERS)
    (ht : timerstr i = some t) (hu' : timerstr j = some u) (hkt : IsKilled t hWnd id)
    (hku : IsKilled u hWnd id) : j = i := by
  have hidt : t.id = id := by
    rcases hkt.2 with h | h
    . omega
    . exact h
  have hidu : u.id = id := by
    rcases hku.2 with h | h
    . omega
    . exact h
  apply hu j i u t hj hi hu' ht
  . rw [hku.1, hkt.1]
  . rw [hidu, hidt]

theorem setTimerEx_spec (timerstr : TimerTable κ) (pMsgQueue : κ) (addr : Nat) (hWnd : Hwnd)
    (id : Int) (speed : BitVec 32) (timerProc : Option Nat)
    : (setTimerEx timerstr pMsgQueue addr hWnd id speed timerProc).2 = timerstr
        ∨
      ∃ slot t,
        slot < DEF_NR_TIMERS ∧ timerstr slot = none ∧ t.hWnd = hWnd ∧ t.id = id
          ∧ (∀ i u, i < DEF_NR_TIMERS → timerstr i = some u → ¬(u.hWnd = hWnd ∧ u.id = id))
          ∧ (setTimerEx timerstr pMsgQueue addr hWnd id speed timerProc).2
              = update timerstr slot (some t) := by
  unfold setTimerEx
  split
  . next slot h =>
    rcases setTimerLoop_spec h with ⟨hnone, hslot⟩
    rcases hslot slot rfl with hno | ⟨hmem, hfree⟩
    . simp at hno
    apply Or.inr
    refine ⟨slot, _, mem_range.mp hmem, hfree, ?_, ?_, ?_, rfl⟩
    . rfl
    . rfl
    . intro i u hi hu
      apply hnone i (mem_range.mpr hi) u hu
  . apply Or.inl
    rfl

theorem Unique.setTimerEx (h : Unique timerstr) (pMsgQueue : κ)
    (addr : Nat) (hWnd : Hwnd) (id : Int) (speed : BitVec 32) (timerProc : Option Nat)
    : Unique (setTimerEx timerstr pMsgQueue addr hWnd id speed timerProc).2 := by
  rcases setTimerEx_spec timerstr pMsgQueue addr hWnd id speed timerProc
    with heq | ⟨slot, t, hslot, hfree, hwnd, hid, hnone, heq⟩
  . rw [heq]
    exact h
  rw [heq]
  intro i j u v hi hj hu hv hwnd' hid'
  by_cases his : i = slot
  . by_cases hjs : j = slot
    . rw [his, hjs]
    rw [his, update_self, Option.some.injEq] at hu
    rw [update_of_ne hjs] at hv
    apply absurd (hnone j v hj hv)
    rw [← hwnd', ← hid', ← hu]
    simp [hwnd, hid]
  rw [update_of_ne his] at hu
  by_cases hjs : j = slot
  . rw [hjs, update_self, Option.some.injEq] at hv
    apply absurd (hnone i u hi hu)
    rw [hwnd', hid', ← hv]
    simp [hwnd, hid]
  . rw [update_of_ne hjs] at hv
    apply h i j u v hi hj hu hv hwnd' hid'

theorem Owned.setTimerEx (h : Owned s) (pMsgQueue : κ)
    (addr : Nat) (hWnd : Hwnd) (id : Int) (speed : BitVec 32) (timerProc : Option Nat)
    : Owned { s with
        timerstr := (setTimerEx s.timerstr pMsgQueue addr hWnd id speed timerProc).2 } := by
  rcases setTimerEx_spec s.timerstr pMsgQueue addr hWnd id speed timerProc
    with heq | ⟨slot, t, hslot, hfree, _, _, _, heq⟩
  . rw [heq]
    exact h
  rw [heq]
  intro q k hbit
  rcases h q k hbit with ⟨u, hu, hq⟩
  -- No queue has the bit of a free slot.
  have hne : k ≠ slot := by
    intro hk
    rw [hk, hfree] at hu
    simp at hu
  dsimp only
  rw [update_of_ne hne]
  exact ⟨u, hu, hq⟩

structure Killed (s s' : TimerState κ) (pMsgQueue : κ) (hWnd : Hwnd) (id : Int) (l : List Nat) :
    Prop where
  gone : ∀ k ∈ l, ∀ t, s.timerstr k = some t → IsKilled t hWnd id → s'.timerstr k = none
  kept : ∀ k, (∀ t, s.timerstr k = some t → ¬IsKilled t hWnd id) → s'.timerstr k = s.timerstr k
  only : ∀ k t, s'.timerstr k = some t → s.timerstr k = some t
  bits : ∀ q k, Bits.has (s'.queues q).timerMask k = true
    ↔ Bits.has (s.queues q).timerMask k = true
        ∧ ¬(q = pMsgQueue ∧ ∃ t, s.timerstr k = some t ∧ s'.timerstr k = none)
  first : SameFirst s'.queues s.queues

theorem Killed.trans {s1 s' : TimerState κ} {pMsgQueue : κ}
    {l1 l2 : List Nat} (h1 : Killed s s1 pMsgQueue hWnd id l1)
    (h2 : Killed s1 s' pMsgQueue hWnd id l2) : Killed s s' pMsgQueue hWnd id (l1 ++ l2) := by
  have hnone : ∀ k, s1.timerstr k = none → s'.timerstr k = none := by
    intro k hk
    cases hs' : s'.timerstr k with
    | none => rfl
    | some t =>
      have := h2.only k t hs'
      rw [hk] at this
      simp at this
  constructor
  . intro k hk t ht hkill
    rcases mem_append.mp hk with hk1 | hk2
    . apply hnone
      apply h1.gone k hk1 t ht hkill
    cases hs1 : s1.timerstr k with
    | none => apply hnone k hs1
    | some u =>
      have hu := h1.only k u hs1
      rw [ht, Option.some.injEq] at hu
      rw [hu] at hkill
      apply h2.gone k hk2 u hs1 hkill
  . intro k hk
    have hs1 := h1.kept k hk
    rw [← hs1]
    apply h2.kept k
    intro t ht
    rw [hs1] at ht
    apply hk t ht
  . intro k t ht
    apply h1.only
    apply h2.only k t ht
  . intro q k
    rw [h2.bits, h1.bits, and_assoc]
    apply and_congr_right
    intro _
    rw [← not_or, not_iff_not, ← and_or_left]
    apply and_congr_right
    intro _
    constructor
    . rintro (⟨t, ht, hs1⟩ | ⟨t, ht, hs'⟩)
      . exact ⟨t, ht, hnone k hs1⟩
      . exact ⟨t, h1.only k t ht, hs'⟩
    rintro ⟨t, ht, hs'⟩
    cases hs1 : s1.timerstr k with
    | none => exact .inl ⟨t, ht, rfl⟩
    | some u => exact .inr ⟨u, rfl, hs'⟩
  . intro q
    rw [h2.first q, h1.first q]

theorem killed_none (s : TimerState κ) (pMsgQueue : κ)
    (h : ∀ k ∈ l, ∀ t, s.timerstr k = some t → ¬IsKilled t hWnd id)
    : Killed s s pMsgQueue hWnd id l := by
  constructor
  . intro k hk t ht hkill
    exact absurd hkill (h k hk t ht)
  . intro k _
    rfl
  . intro k t ht
    exact ht
  . intro q k
    rw [iff_self_and]
    rintro _ ⟨_, t, ht, hnone⟩
    rw [ht] at hnone
    simp at hnone
  . intro q
    rfl

variable [DecidableEq κ]

theorem has_removeMsgQueueTimerFlag (q : MsgQueue) (slot k : Nat)
    : has (removeMsgQueueTimerFlag q slot).timerMask k
        = (has q.timerMask k && decide (k ≠ slot)) := by
  rw [removeMsgQueueTimerFlag, Bits.has_clear]

theorem has_update_remove (queues : κ → MsgQueue) (q q' : κ) (slot k : Nat)
    : has (update queues q (removeMsgQueueTimerFlag (queues q) slot) q').timerMask k
        = (has (queues q').timerMask k && decide (¬(q' = q ∧ k = slot))) := by
  by_cases hq : q' = q
  . rw [hq, update_self, has_removeMsgQueueTimerFlag]
    simp
  . rw [update_of_ne hq]
    simp [hq]

theorem killed_one (pMsgQueue : κ)
    {t : Timer κ} (ht : s.timerstr i = some t) (hkill : IsKilled t hWnd id) : Killed s
        {
          timerstr := update s.timerstr i none
          queues :=
            update s.queues pMsgQueue (removeMsgQueueTimerFlag (s.queues pMsgQueue) i)
        } pMsgQueue hWnd id [i] := by
  constructor
  . intro k hk u _ _
    rw [mem_singleton] at hk
    dsimp only
    rw [hk, update_self]
  . intro k hk
    have hne : k ≠ i := by
      intro heq
      rw [heq] at hk
      exact hk t ht hkill
    apply update_of_ne hne
  . intro k u hu
    dsimp only at hu
    by_cases hki : k = i
    . rw [hki, update_self] at hu
      simp at hu
    . rw [update_of_ne hki] at hu
      exact hu
  . intro q k
    rw [has_update_remove, Bool.and_eq_true, decide_eq_true_iff]
    apply and_congr_right
    intro _
    rw [not_iff_not]
    apply and_congr_right
    intro _
    dsimp only
    by_cases hki : k = i
    . simp [hki, ht]
    rw [update_of_ne hki]
    constructor
    . intro heq
      exact absurd heq hki
    . rintro ⟨u, hu, hnone⟩
      rw [hu] at hnone
      simp at hnone
  . apply sameFirst_update
    rfl

theorem killTimerLoop_spec (hu : Unique s.timerstr) (pMsgQueue : κ)
    (hWnd : Hwnd) (id : Int) (l : List Nat) (hl : ∀ i ∈ l, i < DEF_NR_TIMERS) (killed : Nat)
    : Killed s (killTimerLoop s pMsgQueue hWnd id l killed).2 pMsgQueue hWnd id l := by
  induction l generalizing s killed with
  | nil =>
    apply killed_none
    simp
  | cons i rest ih =>
    have hi := hl i mem_cons_self
    have hrest : ∀ j ∈ rest, j < DEF_NR_TIMERS := by
      intro j hj
      apply hl j (mem_cons_of_mem i hj)
    rw [killTimerLoop]
    split
    . next t ht =>
      split
      . next hkill =>
        have hone := killed_one pMsgQueue ht hkill
        split
        . next hid =>
          -- There is no other timer with that id.
          apply hone.trans
          apply killed_none
          intro k hk u hku hkillu
          have hks := hone.only k u hku
          have heq := IsKilled.slot_eq hu hid hi (hrest k hk) ht hks hkill hkillu
          rw [heq] at hku
          simp at hku
        . apply hone.trans
          apply ih _ hrest
          apply hu.of_subset hone.only
      rename_i hkill
      have hskip : Killed s s pMsgQueue hWnd id [i] := by
        apply killed_none
        intro k hk u hku
        rw [mem_singleton] at hk
        rw [hk, ht, Option.some.injEq] at hku
        rw [← hku]
        exact hkill
      apply hskip.trans
      apply ih hu hrest
    rename_i ht
    have hskip : Killed s s pMsgQueue hWnd id [i] := by
      apply killed_none
      intro k hk u hku
      rw [mem_singleton] at hk
      rw [hk, ht] at hku
      simp at hku
    apply hskip.trans
    apply ih hu hrest

theorem killTimer_spec (hu : Unique s.timerstr) (pMsgQueue : κ) (hWnd : Hwnd) (id : Int)
    : Killed s (killTimer s pMsgQueue hWnd id).2 pMsgQueue hWnd id (List.range DEF_NR_TIMERS) := by
  apply killTimerLoop_spec hu
  intro i hi
  apply mem_range.mp hi

def KillsOwn (s : TimerState κ) (pMsgQueue : κ) (hWnd : Hwnd) (id : Int) : Prop :=
  ∀ k t, k < DEF_NR_TIMERS → s.timerstr k = some t → IsKilled t hWnd id →
    t.msgQueue = pMsgQueue ∨ Bits.has (s.queues t.msgQueue).timerMask k = false

theorem killTimer_owned (hu : Unique s.timerstr) (h : Owned s) (pMsgQueue : κ)
    (hWnd : Hwnd) (id : Int)
    : Owned (killTimer s pMsgQueue hWnd id).2 ↔ KillsOwn s pMsgQueue hWnd id := by
  have hspec := killTimer_spec hu pMsgQueue hWnd id
  constructor
  . intro howned k t hk ht hkill
    by_cases hq : t.msgQueue = pMsgQueue
    . apply Or.inl hq
    apply Or.inr
    rw [← Bool.not_eq_true]
    intro hbit
    have hstill := (hspec.bits t.msgQueue k).mpr ⟨hbit, fun hc => hq hc.1⟩
    rcases howned _ _ hstill with ⟨u, hu', _⟩
    rw [hspec.gone k (mem_range.mpr hk) t ht hkill] at hu'
    simp at hu'
  intro hown q k hbit
  rcases (hspec.bits q k).mp hbit with ⟨hbit0, hnot⟩
  have hk : k < DEF_NR_TIMERS := Bits.lt_of_has hbit0
  rcases h q k hbit0 with ⟨t, ht, hq⟩
  have hkeep : ¬IsKilled t hWnd id := by
    intro hkill
    rcases hown k t hk ht hkill with hcaller | hclear
    . apply hnot
      rw [← hq]
      exact ⟨hcaller, t, ht, hspec.gone k (mem_range.mpr hk) t ht hkill⟩
    . rw [hq, hbit0] at hclear
      simp at hclear
  refine ⟨t, ?_, hq⟩
  rw [← ht]
  apply hspec.kept k
  intro u hu'
  rw [ht, Option.some.injEq] at hu'
  rw [← hu']
  exact hkeep

omit [DecidableEq κ] in
theorem findTimer_spec {t : Timer κ} (h : findTimer timerstr hWnd id = some (i, t))
    : timerstr i = some t := by
  rcases exists_of_findSome?_eq_some h with ⟨j, _, hj⟩
  split at hj
  . next u hu =>
    split at hj
    . rw [Option.some.injEq, Prod.mk.injEq] at hj
      rw [← hj.1, ← hj.2]
      exact hu
    . simp at hj
  . simp at hj

theorem resetTimerEx_spec (s : TimerState κ) (pMsgQueue : κ) (hWnd : Hwnd) (id : Int)
    (speed : BitVec 32) (timerProc : Option (Option Nat))
    : SameKeys (resetTimerEx s pMsgQueue hWnd id speed timerProc).2.timerstr s.timerstr
        ∧ (∀ q k,
            has ((resetTimerEx s pMsgQueue hWnd id speed timerProc).2.queues q).timerMask k
              = true → has (s.queues q).timerMask k = true)
        ∧ SameFirst (resetTimerEx s pMsgQueue hWnd id speed timerProc).2.queues s.queues := by
  unfold resetTimerEx
  split
  . next i t hfind =>
    refine ⟨?_, ?_, ?_⟩
    . apply sameKeys_update (findTimer_spec hfind)
      rfl
    . intro q k hbit
      rw [has_update_remove, Bool.and_eq_true] at hbit
      exact hbit.1
    . apply sameFirst_update
      rfl
  . exact ⟨SameKeys.refl _, fun _ _ hbit => hbit, fun _ => rfl⟩

theorem dispatchTimer_spec (inter counter : BitVec 32) (s : TimerState κ) (i : Nat)
    : SameKeys (dispatchTimer inter counter s i).timerstr s.timerstr
        ∧ SameFirst (dispatchTimer inter counter s i).queues s.queues
        ∧ (Owned s → Owned (dispatchTimer inter counter s i)) := by
  unfold dispatchTimer
  split
  . next t ht =>
    dsimp only
    split
    . refine ⟨?_, ?_, ?_⟩
      . apply sameKeys_update ht
        rfl
      . apply sameFirst_update
        rfl
      intro h q k hbit
      dsimp only at hbit ⊢
      by_cases hi : k = i ∧ q = t.msgQueue
      . rw [hi.1, update_self]
        exact ⟨_, rfl, hi.2.symm⟩
      have hold : has (s.queues q).timerMask k = true := by
        by_cases hq : q = t.msgQueue
        . rw [hq, update_self, setMsgQueueTimerFlag, Bits.has_set] at hbit
          rw [hq]
          have hki : k ≠ i := fun hki => hi ⟨hki, hq⟩
          simpa [hki] using hbit
        . rw [update_of_ne hq] at hbit
          exact hbit
      rcases h q k hold with ⟨u, hu, hown⟩
      by_cases hki : k = i
      . rw [hki, ht, Option.some.injEq] at hu
        rw [hki, update_self]
        refine ⟨_, rfl, ?_⟩
        rw [← hown, ← hu]
      . rw [update_of_ne hki]
        exact ⟨u, hu, hown⟩
    refine ⟨?_, fun _ => rfl, ?_⟩
    . apply sameKeys_update ht
      rfl
    intro h
    apply h.of_sameKeys
    . apply sameKeys_update ht
      rfl
    . intro q k hbit
      exact hbit
  . exact ⟨SameKeys.refl _, fun _ => rfl, id⟩

theorem dispatchTimerMessage_spec (s : TimerState κ) (inter counter : BitVec 32)
    : SameKeys (dispatchTimerMessage s inter counter).timerstr s.timerstr
        ∧ SameFirst (dispatchTimerMessage s inter counter).queues s.queues
        ∧ (Owned s → Owned (dispatchTimerMessage s inter counter)) := by
  unfold dispatchTimerMessage
  generalize List.range DEF_NR_TIMERS = l
  induction l generalizing s with
  | nil => exact ⟨SameKeys.refl _, fun _ => rfl, id⟩
  | cons i rest ih =>
    rcases dispatchTimer_spec inter counter s i with ⟨hkeys, hfirst, howned⟩
    rcases ih (dispatchTimer inter counter s i) with ⟨hkeys', hfirst', howned'⟩
    rw [foldl_cons]
    refine ⟨?_, ?_, ?_⟩
    . apply hkeys'.trans hkeys
    . intro q
      rw [hfirst' q, hfirst q]
    . intro h
      apply howned' (howned h)

end Operations

section Peek

structure UsesTimers (s : PeekState κ) (e : PeekExit κ) : Prop where
  keys : SameKeys e.state.timerstr s.timerstr
  bits : ∀ k, Bits.has e.state.queue.timerMask k = true → Bits.has s.queue.timerMask k = true
  first : s.queue.firstTimerSlot < DEF_NR_TIMERS → e.state.queue.firstTimerSlot < DEF_NR_TIMERS

variable {e : PeekExit κ}

theorem usesTimers_of_eq {s : PeekState κ} (h1 : e.state.timerstr = s.timerstr)
    (h2 : e.state.queue.timerMask = s.queue.timerMask)
    (h3 : e.state.queue.firstTimerSlot = s.queue.firstTimerSlot) : UsesTimers s e := by
  constructor
  . rw [h1]
    apply SameKeys.refl
  . intro k hbit
    rw [h2] at hbit
    exact hbit
  . intro hlt
    rw [h3]
    exact hlt

variable {env : PeekEnv τ} {args : PeekArgs}

theorem usesTimers_taken {result : Bool} {pMsg : Msg} {taken : MsgQueue}
    (hmask : taken.timerMask = t.queue.timerMask)
    (hfirst : taken.firstTimerSlot = t.queue.firstTimerSlot)
    : UsesTimers t (.ret result pMsg (t.setQueue (unlessPeeked args taken t.queue))) := by
  unfold unlessPeeked
  split
  . exact usesTimers_of_eq rfl hmask hfirst
  . exact usesTimers_of_eq rfl rfl rfl

theorem usesTimers_takeTimer {slot : Nat} {timer : Timer κ}
    (htimer : getTimer t.timerstr (some slot) = some timer) (he : e.state = takeTimer t slot timer)
    : UsesTimers t e := by
  constructor
  . rw [he]
    rw [getTimer] at htimer
    split at htimer
    . simp at htimer
    . apply sameKeys_update htimer
      rfl
  . intro k hbit
    rw [he, takeTimer, Bits.has_clear, Bool.and_eq_true] at hbit
    exact hbit.1
  intro _
  rw [he]
  apply Nat.mod_lt
  decide

theorem Effect.usesTimers (he : Effect env args t e) : UsesTimers t e := by
  cases he with
  | quit pMsg hquit =>
    apply usesTimers_taken
    . unfold takeQuit
      dsimp only
      split <;> rfl
    . unfold takeQuit
      dsimp only
      split <;> rfl
  | sync first hb hsync hfirst | notify phead next hnotify hmsgs | posted hpost hne
  | deskPaint pMsg hpaint | deskTimer pMsg hb hdesk => exact usesTimers_taken rfl rfl
  | paint pMsg hpaint | nothing pMsg => exact usesTimers_of_eq rfl rfl rfl
  | deskTimers pMsg hmask =>
    unfold unlessPeeked
    split
    . refine ⟨SameKeys.refl _, ?_, id⟩
      intro k hbit
      simp [PeekExit.state, PeekState.setQueue, Bits.has_zero] at hbit
    . exact usesTimers_of_eq rfl rfl rfl
  | timerProc slot timer pMsg hslot htimer hproc
  | timer slot timer pMsg hslot htimer hproc => apply usesTimers_takeTimer htimer rfl
  | noTimer pMsg hnone =>
    refine ⟨SameKeys.refl _, fun k hbit => hbit, ?_⟩
    intro _
    apply Nat.mod_lt
    decide

variable (env args) in
theorem peekSection_timers (pMsg : Msg) (s : PeekState κ)
    : UsesTimers s (peekSection env args pMsg s) := by
  rcases peekSection_does env args pMsg s with ⟨t, ⟨d, rfl, _⟩, he⟩
  have h := he.usesTimers
  exact ⟨h.keys, h.bits, h.first⟩

end Peek

/--
The threads of a program with timers. `timerProcs` lists the callbacks that a thread is in, the innermost
first, each with the record and the slot it was found in.
-/
structure TimerSys (κ : Type) extends TimerState κ where
  timerProcs : κ → List (Timer κ × Nat)

inductive TimerCallOp (κ τ : Type) where
  | setTimerEx (pMsgQueue : κ) (addr : Nat) (hWnd : Hwnd) (id : Int) (speed : BitVec 32)
      (timerProc : Option Nat)
  | killTimer (pMsgQueue : κ) (hWnd : Hwnd) (id : Int)
  | resetTimerEx (pMsgQueue : κ) (hWnd : Hwnd) (id : Int) (speed : BitVec 32)
      (timerProc : Option (Option Nat))
  | dispatchTimerMessage (inter counter : BitVec 32)
  | peekMessageEx (pMsgQueue : κ) (env : PeekEnv τ) (args : PeekArgs) (pMsg : Msg)
  | timerProcReturns (pMsgQueue : κ) (retTimerProc : Bool)

namespace TimerSys

def peekState (s : TimerSys κ) (q : κ) : PeekState κ :=
  { queue := s.queues q, timerstr := s.timerstr }

def setPeekState [DecidableEq κ] (s : TimerSys κ) (q : κ) (t : PeekState κ) : TimerSys κ :=
  { s with timerstr := t.timerstr, queues := update s.queues q t.queue }

def exec [DecidableEq κ] (s : TimerSys κ) : TimerCallOp κ τ → TimerSys κ
  | .setTimerEx q addr hWnd id speed timerProc =>
    { s with timerstr := (setTimerEx s.timerstr q addr hWnd id speed timerProc).2 }
  | .killTimer q hWnd id =>
    { s with toTimerState := (killTimer s.toTimerState q hWnd id).2 }
  | .resetTimerEx q hWnd id speed timerProc =>
    { s with toTimerState := (resetTimerEx s.toTimerState q hWnd id speed timerProc).2 }
  | .dispatchTimerMessage inter counter =>
    { s with toTimerState := dispatchTimerMessage s.toTimerState inter counter }
  | .peekMessageEx q env args pMsg =>
    match peekSection env args pMsg (s.peekState q) with
    | .callProc timer slot _ _ t =>
      { s.setPeekState q t with
        timerProcs := update s.timerProcs q ((timer, slot) :: s.timerProcs q) }
    | e => s.setPeekState q e.state
  | .timerProcReturns q retTimerProc =>
    match s.timerProcs q with
    | [] => s
    | (timer, slot) :: rest =>
      { s.setPeekState q (peekTimerDone retTimerProc timer slot (s.peekState q)) with
        timerProcs := update s.timerProcs q rest }

def init : TimerSys κ :=
  { timerstr := fun _ => none, queues := fun _ => initMsgQueue 0, timerProcs := fun _ => [] }

def DropsOwn (s : TimerSys κ) (q : κ) : Prop :=
  ∀ timer slot rest t, s.timerProcs q = (timer, slot) :: rest → slot < DEF_NR_TIMERS →
    s.timerstr slot = some t → t.addr = timer.addr →
      Bits.has (s.queues t.msgQueue).timerMask slot = false

def Clean (s : TimerSys κ) : TimerCallOp κ τ → Prop
  | .killTimer q hWnd id => KillsOwn s.toTimerState q hWnd id
  | .timerProcReturns q false => DropsOwn s q
  | _ => True

structure Inv (s : TimerSys κ) : Prop where
  unique : Unique s.timerstr
  first : ∀ q, (s.queues q).firstTimerSlot < DEF_NR_TIMERS

theorem inv_init : (init : TimerSys κ).Inv := by
  constructor
  . intro i j t u _ _ ht
    simp [init] at ht
  . intro q
    simp [init, initMsgQueue, DEF_NR_TIMERS]

theorem owned_init : Owned (init : TimerSys κ).toTimerState := by
  intro q k hbit
  simp [init, initMsgQueue] at hbit

theorem removeTimer_spec (timerstr : TimerTable κ) (addr slot : Nat)
    : (∃ t, slot < DEF_NR_TIMERS ∧ timerstr slot = some t ∧ t.addr = addr
        ∧ removeTimer timerstr addr slot = update timerstr slot none)
        ∨
      (∀ t, slot < DEF_NR_TIMERS → timerstr slot = some t → t.addr ≠ addr)
        ∧ removeTimer timerstr addr slot = timerstr := by
  unfold removeTimer
  split
  . apply Or.inr
    refine ⟨?_, rfl⟩
    intro t hlt
    omega
  rename_i hlt
  cases ht : timerstr slot with
  | none => simp
  | some t =>
    dsimp only
    split
    . next haddr => exact .inl ⟨t, by omega, rfl, haddr, rfl⟩
    rename_i haddr
    apply Or.inr
    refine ⟨?_, rfl⟩
    intro u _ hu
    rw [Option.some.injEq] at hu
    rw [← hu]
    exact haddr

theorem removeTimer_only (timerstr : TimerTable κ) (addr slot : Nat)
    : ∀ k t, removeTimer timerstr addr slot k = some t → timerstr k = some t := by
  intro k t ht
  rcases removeTimer_spec timerstr addr slot with ⟨u, _, _, _, heq⟩ | ⟨_, heq⟩
  . rw [heq] at ht
    by_cases hk : k = slot
    . rw [hk, update_self] at ht
      simp at ht
    . rw [update_of_ne hk] at ht
      exact ht
  . rw [heq] at ht
    exact ht

theorem owned_removeTimer (h : Owned s) (addr slot : Nat)
    : Owned { s with timerstr := removeTimer s.timerstr addr slot }
        ↔
      ∀ t, slot < DEF_NR_TIMERS → s.timerstr slot = some t → t.addr = addr →
        has (s.queues t.msgQueue).timerMask slot = false := by
  rcases removeTimer_spec s.timerstr addr slot with ⟨t, hlt, ht, haddr, heq⟩ | ⟨hno, heq⟩
  . rw [heq]
    constructor
    . intro howned u _ hu _
      rw [← Bool.not_eq_true]
      intro hbit
      rcases howned _ _ hbit with ⟨v, hv, _⟩
      simp at hv
    intro hclear q k hbit
    rcases h q k hbit with ⟨u, hu, hq⟩
    have hk : k ≠ slot := by
      intro hk
      rw [hk, ht, Option.some.injEq] at hu
      have := hclear t hlt ht haddr
      rw [hu, hq, ← hk, hbit] at this
      simp at this
    dsimp only
    rw [update_of_ne hk]
    exact ⟨u, hu, hq⟩
  rw [heq]
  constructor
  . intro _ t hlt ht haddr
    exact absurd haddr (hno t hlt ht)
  . intro _
    exact h

theorem peekTimerDone_queue (retTimerProc : Bool) (timer : Timer κ) (slot : Nat) (s : PeekState κ)
    : (peekTimerDone retTimerProc timer slot s).queue = s.queue := by
  unfold peekTimerDone
  split <;> rfl

variable [DecidableEq κ]

theorem setPeekState_queue (s : TimerSys κ) (q : κ) (t : PeekState κ) (q' : κ)
    : (s.setPeekState q t).queues q' = if q' = q then t.queue else s.queues q' := by
  unfold setPeekState
  by_cases hq : q' = q
  . rw [hq, if_pos rfl]
    apply update_self
  . rw [if_neg hq]
    apply update_of_ne hq

theorem setPeekState_same (s : TimerSys κ) (q : κ) (h : t.queue = s.queues q)
    : (s.setPeekState q t).toTimerState = { s.toTimerState with timerstr := t.timerstr } := by
  have hqueues : (s.setPeekState q t).queues = s.queues := by
    funext q'
    rw [setPeekState_queue, h]
    split
    . next hq => rw [hq]
    . rfl
  exact congrArg (TimerState.mk t.timerstr) hqueues

theorem exec_peekMessageEx (s : TimerSys κ) (q : κ) (env : PeekEnv τ) (args : PeekArgs) (pMsg : Msg)
    : (s.exec (.peekMessageEx q env args pMsg)).toTimerState
        = (s.setPeekState q (peekSection env args pMsg (s.peekState q)).state).toTimerState := by
  simp only [exec]
  split
  . next heq =>
    rw [heq]
    rfl
  . rfl

theorem exec_timerProcReturns (s : TimerSys κ) (q : κ) (retTimerProc : Bool)
    : (s.exec (τ := τ) (.timerProcReturns q retTimerProc)).toTimerState
        =
      match s.timerProcs q with
      | [] => s.toTimerState
      | (timer, slot) :: _ =>
        if retTimerProc then
          s.toTimerState
        else
          { s.toTimerState with timerstr := removeTimer s.timerstr timer.addr slot } := by
  simp only [exec]
  split
  . rfl
  rename_i timer slot rest hprocs
  have hqueue := peekTimerDone_queue retTimerProc timer slot (s.peekState q)
  rw [s.setPeekState_same q hqueue]
  cases retTimerProc <;> rfl

theorem inv_exec {s : TimerSys κ} (h : s.Inv) (op : TimerCallOp κ τ) : (s.exec op).Inv := by
  cases op with
  | setTimerEx q addr hWnd id speed timerProc =>
    exact ⟨h.unique.setTimerEx q addr hWnd id speed timerProc, h.first⟩
  | killTimer q hWnd id =>
    have hspec := killTimer_spec h.unique q hWnd id
    constructor
    . apply h.unique.of_subset hspec.only
    intro q'
    simp only [exec]
    rw [hspec.first q']
    apply h.first
  | resetTimerEx q hWnd id speed timerProc =>
    rcases resetTimerEx_spec s.toTimerState q hWnd id speed timerProc with ⟨hkeys, _, hfirst⟩
    constructor
    . apply h.unique.of_sameKeys hkeys.symm
    intro q'
    simp only [exec]
    rw [hfirst q']
    apply h.first
  | dispatchTimerMessage inter counter =>
    rcases dispatchTimerMessage_spec s.toTimerState inter counter with ⟨hkeys, hfirst, _⟩
    constructor
    . apply h.unique.of_sameKeys hkeys.symm
    intro q'
    simp only [exec]
    rw [hfirst q']
    apply h.first
  | peekMessageEx q env args pMsg =>
    have hspec := peekSection_timers env args pMsg (s.peekState q)
    have heq := exec_peekMessageEx s q env args pMsg
    constructor
    . rw [heq]
      apply h.unique.of_sameKeys hspec.keys.symm
    intro q'
    rw [heq, setPeekState_queue]
    split
    . apply hspec.first
      apply h.first
    . apply h.first
  | timerProcReturns q retTimerProc =>
    have heq := exec_timerProcReturns (τ := τ) s q retTimerProc
    constructor
    . rw [heq]
      split
      . exact h.unique
      split
      . exact h.unique
      . apply h.unique.of_subset
        apply removeTimer_only
    rw [heq]
    split
    . exact h.first
    . split
      . exact h.first
      . exact h.first

theorem owned_exec {s : TimerSys κ} (h : s.Inv) (howned : Owned s.toTimerState)
    (op : TimerCallOp κ τ) : Owned (s.exec op).toTimerState ↔ s.Clean op := by
  cases op with
  | setTimerEx q addr hWnd id speed timerProc =>
    simp only [Clean, iff_true]
    apply howned.setTimerEx
  | killTimer q hWnd id => apply killTimer_owned h.unique howned
  | resetTimerEx q hWnd id speed timerProc =>
    rcases resetTimerEx_spec s.toTimerState q hWnd id speed timerProc with ⟨hkeys, hbits, _⟩
    simp only [Clean, iff_true]
    apply howned.of_sameKeys hkeys hbits
  | dispatchTimerMessage inter counter =>
    simp only [Clean, iff_true]
    apply (dispatchTimerMessage_spec s.toTimerState inter counter).2.2 howned
  | peekMessageEx q env args pMsg =>
    have hspec := peekSection_timers env args pMsg (s.peekState q)
    simp only [Clean, iff_true]
    rw [exec_peekMessageEx]
    apply howned.of_sameKeys hspec.keys
    intro q' k hbit
    rw [setPeekState_queue] at hbit
    split at hbit
    . next hq =>
      rw [hq]
      apply hspec.bits k hbit
    . exact hbit
  | timerProcReturns q retTimerProc =>
    rw [exec_timerProcReturns]
    cases retTimerProc with
    | true =>
      simp only [Clean, iff_true, ↓reduceIte]
      split
      . exact howned
      . exact howned
    | false =>
      simp only [Clean, DropsOwn]
      cases hprocs : s.timerProcs q with
      | nil => simpa using howned
      | cons running rest =>
        rcases running with ⟨timer, slot⟩
        dsimp only
        rw [if_neg (by simp), owned_removeTimer howned]
        constructor
        . intro hclear timer' slot' rest' t heq
          rw [List.cons.injEq, Prod.mk.injEq] at heq
          rw [← heq.1.1, ← heq.1.2]
          apply hclear t
        . intro hclear t
          apply hclear timer slot rest t rfl

def DeliversOwn (τ : Type) (s : TimerSys κ) (q : κ) : Prop :=
  ∀ (env : PeekEnv τ) (args : PeekArgs) (pMsg : Msg),
    (∀ timer slot tickCount pMsg' t,
      peekSection env args pMsg (s.peekState q) = .callProc timer slot tickCount pMsg' t →
        timer.msgQueue = q)
      ∧
    (ReachesTimerSlots env args (s.peekState q) →
      ∃ slot timer, s.timerstr slot = some timer ∧ timer.msgQueue = q
        ∧ Serves (s.peekState q) (peekSection env args pMsg (s.peekState q)) slot)

omit [DecidableEq κ] in
theorem Inv.deliversOwn {s : TimerSys κ} (h : s.Inv) (howned : Owned s.toTimerState) (q : κ)
    : s.DeliversOwn τ q := by
  have hslot : ∀ slot timer, expiredSlot (s.queues q) = some slot →
      getTimer s.timerstr (some slot) = some timer →
      s.timerstr slot = some timer ∧ timer.msgQueue = q := by
    intro slot timer hexp htimer
    rcases howned q slot (expiredSlot_has hexp) with ⟨t, ht, hq⟩
    rw [getTimer] at htimer
    split at htimer
    . simp at htimer
    . rw [ht, Option.some.injEq] at htimer
      rw [← htimer]
      exact ⟨ht, hq⟩
  intro env args pMsg
  constructor
  . intro timer slot tickCount pMsg' u hcall
    rcases peekSection_does env args pMsg (s.peekState q) with ⟨t, ⟨d, rfl, _⟩, he⟩
    rw [hcall] at he
    cases he with
    | timerProc slot timer pMsg hexp htimer hproc => apply (hslot slot timer hexp htimer).2
  intro hreach
  rcases peekSection_timerCall hreach (h.first q) pMsg with ⟨slot, hcall⟩
  have hlt : slot < DEF_NR_TIMERS := Bits.lt_of_has hcall.bit
  rcases howned q slot hcall.bit with ⟨timer, htimer, hq⟩
  have hget : getTimer s.timerstr (some slot) = some timer := by
    rw [getTimer, if_neg (by omega)]
    exact htimer
  refine ⟨slot, timer, htimer, hq, (hcall.installed ?_).1⟩
  rw [peekState, hget]
  simp

def step (s : TimerSys κ) (op : TimerCallOp κ τ) (s' : TimerSys κ) : Prop :=
  s' = s.exec op

open Reach

/--
No two timers ever have the same window and id.
-/
theorem timer_ownership
    : (∀ s, Reachable (step (κ := κ) (τ := τ)) (fun _ _ => True) init s → Unique s.timerstr)
        ∧
      ∀ s, Reachable (step (κ := κ) (τ := τ)) Clean init s →
        Owned s.toTimerState
          ∧ (∀ op : TimerCallOp κ τ, Owned (s.exec op).toTimerState ↔ s.Clean op)
          ∧ ∀ q, s.DeliversOwn τ q := by
  have hinv : ∀ s, Reachable (step (κ := κ) (τ := τ)) (fun _ _ => True) init s → s.Inv := by
    intro s hs
    apply hs.invariant inv_init
    intro t op t' ht _ heq
    rw [heq]
    apply inv_exec ht
  constructor
  . intro s hs
    apply (hinv s hs).unique
  intro s hs
  have hboth : s.Inv ∧ Owned s.toTimerState := by
    apply hs.invariant ⟨inv_init, owned_init⟩
    rintro t op t' ⟨ht, howned⟩ hok heq
    rw [heq]
    exact ⟨inv_exec ht op, (owned_exec ht howned op).mpr hok⟩
  refine ⟨hboth.2, ?_, ?_⟩
  . intro op
    apply owned_exec hboth.1 hboth.2 op
  . intro q
    apply hboth.1.deliversOwn hboth.2

def installAndTick : List (TimerCallOp Bool Unit) :=
  [.setTimerEx true 4096 5 1 1 none, .dispatchTimerMessage 1 7]

theorem timer_ownership_ticked : Owned (installAndTick.foldl exec init).toTimerState
        ∧ (installAndTick.foldl exec init).DeliversOwn Unit true := by
  have hreach : Reachable (step (κ := Bool) (τ := Unit)) Clean init
      (installAndTick.foldl exec init) := by
    apply Reachable.step (a := .dispatchTimerMessage 1 7) _ trivial rfl
    apply Reachable.step (a := .setTimerEx true 4096 5 1 1 none) Reachable.init trivial rfl
  have h := timer_ownership.2 _ hreach
  exact ⟨h.1, h.2.2 true⟩

def installTickAndKill : List (TimerCallOp Bool Unit) :=
  installAndTick ++ [.killTimer false 5 1]

theorem timer_ownership_lost
    : ¬∀ s, Reachable (step (κ := Bool) (τ := Unit)) (fun _ _ => True) init s →
        Owned s.toTimerState ∧ Unique s.timerstr := by
  intro h
  have hreach : Reachable (step (κ := Bool) (τ := Unit)) (fun _ _ => True) init
      (installTickAndKill.foldl exec init) := by
    apply Reachable.foldl
    . intro s op
      rfl
    . intro op _ s
      trivial
  rcases (h _ hreach).1 true 0 (by decide) with ⟨t, ht, _⟩
  have hnone : (installTickAndKill.foldl exec init).timerstr 0 = none := by decide
  rw [hnone] at ht
  simp at ht

end TimerSys

end MiniGui
