import MiniGui.Kernel.PeekPure
import MiniGui.Library.Chain

namespace MiniGui

open List PeekExit

open Chain

open PeekState (setQueue)

variable {κ τ : Type}

section Kept

variable (env : PeekEnv τ) (args : PeekArgs)

def unwanted (pMsg : Msg) : Bool :=
  !isMsgWanted args pMsg.message

def unwantedSync (l : List Nat) : List Nat :=
  l.filter fun m => unwanted args (env.syncMsg m).msg

structure FilterKept (s t : PeekState κ) : Prop where
  sync : env.build = .threads → ∀ l, Linked (fun m => (env.syncMsg m).pNext) s.queue.pFirstSyncMsg l →
    ∃ l', Linked (fun m => (env.syncMsg m).pNext) t.queue.pFirstSyncMsg l' ∧ unwantedSync env args l' = unwantedSync env args l
  notify : t.queue.notifyMsgs.filter (unwanted args) = s.queue.notifyMsgs.filter (unwanted args)
  posted : t.queue.pending.filter (unwanted args) = s.queue.pending.filter (unwanted args)
  syncFlag : env.build = .threads → s.queue.pFirstSyncMsg ≠ none → t.queue.has QS_SYNCMSG = s.queue.has QS_SYNCMSG
  notifyFlag : s.queue.notifyMsgs ≠ [] → t.queue.has QS_NOTIFYMSG = s.queue.has QS_NOTIFYMSG
  postFlag : s.queue.readpos ≠ s.queue.writepos → t.queue.has QS_POSTMSG = s.queue.has QS_POSTMSG
  paint : isMsgWanted args MSG_PAINT = false → t.queue.has QS_PAINT = s.queue.has QS_PAINT
  deskTimer : env.build = .lite → isMsgWanted args MSG_TIMER = false →
    t.queue.has QS_DESKTIMER = s.queue.has QS_DESKTIMER
  timers : isMsgWanted args MSG_TIMER = false →
    t.queue.timerMask = s.queue.timerMask ∧ t.queue.firstTimerSlot = s.queue.firstTimerSlot ∧ t.timerstr = s.timerstr

structure Filtered (s : PeekState κ) (e : PeekExit κ) : Prop where
  wanted : ∀ pMsg t, e = .ret true pMsg t → isMsgWanted args pMsg.message = true
  kept : FilterKept env args s e.state

def DeskTimerFirst (s : PeekState κ) : Prop :=
  Pending env args s.queue .deskTimer ∧ ∀ src, src ≠ .deskTimer → ¬Pending env args s.queue src

def Filters (s : PeekState κ) (e : PeekExit κ) : Prop :=
  (DeskTimerFirst env args s → ∃ pMsg t, e = .ret true pMsg t ∧ pMsg.message = MSG_TIMER)
    ∧
  (¬(DeskTimerFirst env args s ∧ isMsgWanted args MSG_TIMER = false) → Filtered env args s e)

end Kept

variable {pMsg : Msg} {result : Bool}

section Parts

open EarlyReturn

variable {env : PeekEnv τ} {args : PeekArgs} {s t : PeekState κ}

theorem FilterKept.refl (s : PeekState κ) : FilterKept env args s s :=
  ⟨fun _ l h => ⟨l, h, rfl⟩, rfl, rfl, fun _ _ => rfl, fun _ => rfl, fun _ => rfl, fun _ => rfl, fun _ _ => rfl,
    fun _ => ⟨rfl, rfl, rfl⟩⟩

structure Looked (env : PeekEnv τ) (args : PeekArgs) (s : PeekState κ) (n : Nat) (x : Msg × PeekState κ) : Prop where
  asked : Asked env args s n x
  paint : isMsgWanted args MSG_PAINT = false → x.2.queue.has QS_PAINT = s.queue.has QS_PAINT

variable {n : Nat} {u : PeekState κ}

section

variable (h : Looked env args s n (pMsg, t))
include h

theorem Looked.keeps (hkept : FilterKept env args t u) : FilterKept env args s u := by
  obtain ⟨⟨⟨dwState, hst, hflags⟩, hdone⟩, hpaint⟩ := h
  dsimp only at hst
  constructor
  . have hsync := hkept.sync
    rw [hst] at hsync
    exact hsync
  . have hnotify := hkept.notify
    rw [hst] at hnotify
    exact hnotify
  . have hposted := hkept.posted
    rw [hst] at hposted
    exact hposted
  . intro hb hsync
    obtain ⟨first, hfirst⟩ := Option.ne_none_iff_exists'.mp hsync
    rw [← hflags QS_SYNCMSG (matters_sync hfirst)]
    apply hkept.syncFlag hb
    rw [hst]
    exact hsync
  . intro hnotify
    rw [← hflags QS_NOTIFYMSG (matters_notify hnotify)]
    apply hkept.notifyFlag
    rw [hst]
    exact hnotify
  . intro hposted
    rw [← hflags QS_POSTMSG (matters_post hposted)]
    apply hkept.postFlag
    rw [hst]
    exact hposted
  . intro hunwanted
    rw [hkept.paint hunwanted]
    exact hpaint hunwanted
  . intro hb hunwanted
    rw [hkept.deskTimer hb hunwanted]
    exact hflags QS_DESKTIMER (matters_deskTimer hb _)
  . have htimers := hkept.timers
    rw [hst] at htimers
    exact htimers

theorem Looked.pending {src : Source}
    (hp : Pending env args t.queue src) : Pending env args s.queue src :=
  (h.asked.1.pending_iff src).mpr hp

variable (src : Source)

theorem Looked.next {pMsg' : Msg}
    (hsrc : Source.order.take (n + 1) = Source.order.take n ++ [src]) (hnone : ¬Pending env args t.queue src)
    (hsettles : Settles env args t u)
    (hpaint : isMsgWanted args MSG_PAINT = false → u.queue.has QS_PAINT = t.queue.has QS_PAINT)
    : Looked env args s (n + 1) (pMsg', u) := by
  refine ⟨⟨h.asked.1.trans hsettles, ?_⟩, ?_⟩
  . rw [hsrc]
    intro other hmem
    rw [mem_append, mem_singleton] at hmem
    rcases hmem with hmem | hmem
    . exact h.asked.2 other hmem
    . rw [hmem, h.asked.1.pending_iff src]
      exact hnone
  . intro hunwanted
    rw [hpaint hunwanted]
    exact h.paint hunwanted

theorem Looked.stay {pMsg' : Msg}
    (hsrc : Source.order.take (n + 1) = Source.order.take n ++ [src]) (hnone : ¬Pending env args t.queue src)
    : Looked env args s (n + 1) (pMsg', t) :=
  h.next src hsrc hnone (Settles.refl t) fun _ => rfl

theorem Looked.found (hsrc : src ≠ .deskTimer) (hp : Pending env args t.queue src) {found : Msg}
    (hwanted : result = true → isMsgWanted args found.message = true) (hkept : FilterKept env args t u)
    : Filters env args s (.ret result found u) := by
  constructor
  . intro hfirst
    exact absurd (h.pending hp) (hfirst.2 src hsrc)
  intro _
  refine ⟨?_, h.keeps hkept⟩
  intro pMsg' t' heq
  rw [ret.injEq] at heq
  rw [← heq.2.1]
  exact hwanted heq.1

end

theorem filter_unwanted_cons {l : List Msg} (h : isMsgWanted args pMsg.message = true)
    : (pMsg :: l).filter (unwanted args) = l.filter (unwanted args) := by
  rw [filter_cons_of_neg]
  simp [unwanted, h]

theorem peekQuit_filters (s : PeekState κ)
    : Triple (Looked env args s 0) (peekQuit env args) (Looked env args s 1) (Filters env args s) := by
  rintro ⟨pMsg, t⟩ h
  unfold peekQuit
  dsimp only
  split
  . next hquit =>
    refine h.found .quit (by decide) hquit (fun hfalse => absurd hfalse (by decide)) ?_
    split
    . split
      . refine ⟨fun _ l hl => ⟨l, hl, rfl⟩, rfl, rfl, ?_, ?_, ?_, ?_, ?_, fun _ => ⟨rfl, rfl, rfl⟩⟩
        all_goals
          intros
          simp [setQueue, MsgQueue.has, MsgQueue.clearFlag, QS_QUIT, QS_SYNCMSG, QS_NOTIFYMSG, QS_POSTMSG,
            QS_PAINT, QS_DESKTIMER]
      . exact ⟨fun _ l hl => ⟨l, hl, rfl⟩, rfl, rfl, fun _ _ => rfl, fun _ => rfl, fun _ => rfl, fun _ => rfl,
          fun _ _ => rfl, fun _ => ⟨rfl, rfl, rfl⟩⟩
    . exact FilterKept.refl t
  . next hquit => exact h.stay .quit rfl hquit

theorem peekSync_filters (s : PeekState κ)
    : Triple (Looked env args s 1) (peekSync env args) (Looked env args s 2) (Filters env args s) := by
  rintro ⟨pMsg, t⟩ h
  unfold peekSync
  dsimp only
  split
  . next hb =>
    apply h.stay .sync rfl
    intro hp
    rw [hp.1] at hb
    cases hb
  rename_i hb
  split
  . next hflag =>
    split
    . next first hfirst =>
      split
      . next hwanted =>
        refine h.found .sync (by decide) ⟨hb, hflag, first, hfirst, hwanted⟩ (fun _ => hwanted) ?_
        split
        . refine ⟨?_, rfl, rfl, fun _ _ => rfl, fun _ => rfl, fun _ => rfl, fun _ => rfl, fun _ _ => rfl,
            fun _ => ⟨rfl, rfl, rfl⟩⟩
          intro _ l hl
          rw [hfirst] at hl
          cases l with
          | nil => cases hl
          | cons m l =>
            rw [linked_cons] at hl
            obtain ⟨hm, hl⟩ := hl
            rw [Option.some.injEq] at hm
            rw [← hm] at hl
            refine ⟨l, hl, ?_⟩
            rw [unwantedSync, unwantedSync, filter_cons_of_neg]
            rw [← hm]
            simp [unwanted, hwanted]
        . exact FilterKept.refl t
      rename_i hnot
      apply h.stay .sync rfl
      rintro ⟨_, _, other, hother, hwanted⟩
      rw [hfirst, Option.some.injEq] at hother
      rw [← hother] at hwanted
      exact hnot hwanted
    rename_i hnone
    apply h.next .sync rfl
    . rintro ⟨_, _, other, hother, _⟩
      rw [hnone] at hother
      cases hother
    . exact Settles.clearFlag t (not_matters_sync hb hnone)
    . intro _
      rw [setQueue, MsgQueue.has_clearFlag]
      simp [QS_PAINT, QS_SYNCMSG]
  . next hflag =>
    apply h.stay .sync rfl
    intro hp
    exact hflag hp.2.1

theorem peekNotify_filters (s : PeekState κ)
    : Triple (Looked env args s 2) (peekNotify env args) (Looked env args s 3) (Filters env args s) := by
  rintro ⟨pMsg, t⟩ h
  unfold peekNotify
  dsimp only
  split
  . next hflag =>
    split
    . next phead next hmsgs =>
      rw [setPAdd_message]
      split
      . next hwanted =>
        refine h.found .notify (by decide) ⟨hflag, phead, next, hmsgs, hwanted⟩ (fun _ => ?_) ?_
        . rw [setPAdd_message]
          exact hwanted
        split
        . refine ⟨fun _ l hl => ⟨l, hl, rfl⟩, ?_, rfl, fun _ _ => rfl, fun _ => rfl, fun _ => rfl, fun _ => rfl,
            fun _ _ => rfl, fun _ => ⟨rfl, rfl, rfl⟩⟩
          rw [hmsgs, filter_unwanted_cons hwanted]
          rfl
        . exact FilterKept.refl t
      rename_i hnot
      apply h.stay .notify rfl
      rintro ⟨_, other, rest, hother, hwanted⟩
      rw [hmsgs, List.cons.injEq] at hother
      rw [← hother.1] at hwanted
      exact hnot hwanted
    rename_i hnil
    apply h.next .notify rfl
    . rintro ⟨_, other, rest, hother, _⟩
      rw [hnil] at hother
      cases hother
    . exact Settles.clearFlag t (not_matters_notify hnil)
    . intro _
      rw [setQueue, MsgQueue.has_clearFlag]
      simp [QS_PAINT, QS_NOTIFYMSG]
  . next hflag =>
    apply h.stay .notify rfl
    intro hp
    exact hflag hp.1

theorem checkCapturedMouseMessage_message (pMsg : Msg)
    : (checkCapturedMouseMessage env pMsg).message = pMsg.message := by
  unfold checkCapturedMouseMessage
  split <;> rfl

theorem peekPosted_filters (s : PeekState κ) (hring : s.queue.RingOk)
    : Triple (Looked env args s 3) (peekPosted env args) (Looked env args s 4) (Filters env args s) := by
  rintro ⟨pMsg, t⟩ h
  have hringT : t.queue.RingOk := by
    obtain ⟨dwState, hst, _⟩ := h.asked.1
    dsimp only at hst
    rw [hst]
    exact ⟨hring.readpos_lt, hring.writepos_lt⟩
  unfold peekPosted
  dsimp only
  split
  . next hflag =>
    split
    . next hne =>
      rw [setPAdd_message]
      split
      . next hwanted =>
        refine h.found .posted (by decide) ⟨hflag, hne, hwanted⟩ (fun _ => ?_) ?_
        . rw [checkCapturedMouseMessage_message, setPAdd_message]
          exact hwanted
        split
        . refine ⟨fun _ l hl => ⟨l, hl, rfl⟩, rfl, ?_, fun _ _ => rfl, fun _ => rfl, fun _ => rfl, fun _ => rfl,
            fun _ _ => rfl, fun _ => ⟨rfl, rfl, rfl⟩⟩
          rw [hringT.pending_cons hne, filter_unwanted_cons hwanted]
          rfl
        . exact FilterKept.refl t
      . next hnot =>
        apply h.stay .posted rfl
        intro hp
        exact hnot hp.2.2
    rename_i heq
    apply h.next .posted rfl
    . intro hp
      exact heq hp.2.1
    . apply Settles.clearFlag t
      apply not_matters_post
      rw [ne_eq, not_not] at heq
      exact heq
    . intro _
      rw [setQueue, MsgQueue.has_clearFlag]
      simp [QS_PAINT, QS_POSTMSG]
  . next hflag =>
    apply h.stay .posted rfl
    intro hp
    exact hflag hp.1

theorem peekPaint_filters (s : PeekState κ)
    : Triple (Looked env args s 4) (peekPaint env args) (Looked env args s 5) (Filters env args s) := by
  rintro ⟨pMsg, t⟩ h
  unfold peekPaint
  dsimp only
  split
  . next hflag =>
    rw [Bool.and_eq_true] at hflag
    split
    . next hdesk =>
      refine h.found .paint (by decide) ⟨hflag.1, hflag.2, by simp [paintable, hdesk]⟩ (fun _ => ?_) ?_
      . rw [setPAdd_message]
        exact hflag.2
      split
      . refine ⟨fun _ l hl => ⟨l, hl, rfl⟩, rfl, rfl, ?_, ?_, ?_, ?_, ?_, fun _ => ⟨rfl, rfl, rfl⟩⟩
        . intros
          simp [setQueue, QS_PAINT, QS_SYNCMSG]
        . intros
          simp [setQueue, QS_PAINT, QS_NOTIFYMSG]
        . intros
          simp [setQueue, QS_PAINT, QS_POSTMSG]
        . intro hunwanted
          rw [hflag.2] at hunwanted
          cases hunwanted
        . intros
          simp [setQueue, QS_PAINT, QS_DESKTIMER]
      . exact FilterKept.refl t
    rename_i hdesk
    split
    . next hNeedPaint hneed =>
      refine h.found .paint (by decide) ⟨hflag.1, hflag.2, by simp [paintable, hneed]⟩ (fun _ => ?_)
        (FilterKept.refl t)
      rw [setPAdd_message]
      exact hflag.2
    rename_i hnone
    have hnot : paintable env args = false := paintable_eq_false hdesk hnone
    apply h.next .paint rfl
    . intro hp
      have hpaint := hp.2.2
      rw [hnot] at hpaint
      cases hpaint
    . exact Settles.clearFlag t (not_matters_paint hnot)
    . intro hunwanted
      rw [hflag.2] at hunwanted
      cases hunwanted
  rename_i hflag
  apply h.stay .paint rfl
  intro hp
  rw [Bool.and_eq_true] at hflag
  exact hflag ⟨hp.1, hp.2.1⟩

theorem peekDeskTimer_filters (s : PeekState κ)
    : Triple (Looked env args s 5) (peekDeskTimer env args) (Looked env args s 6) (Filters env args s) := by
  rintro ⟨pMsg, t⟩ h
  unfold peekDeskTimer
  dsimp only
  split
  . next hdesk =>
    have hfirst : DeskTimerFirst env args s := by
      refine ⟨h.pending hdesk, ?_⟩
      intro src hsrc
      apply h.asked.2
      cases src <;> first | decide | exact absurd rfl hsrc
    refine ⟨fun _ => ⟨_, _, rfl, rfl⟩, ?_⟩
    intro hnot
    have hwanted : isMsgWanted args MSG_TIMER = true := by
      by_contra hunwanted
      rw [Bool.not_eq_true] at hunwanted
      exact hnot ⟨hfirst, hunwanted⟩
    refine ⟨?_, h.keeps ?_⟩
    . intro pMsg' t' heq
      rw [ret.injEq] at heq
      rw [← heq.2.1]
      exact hwanted
    split
    . refine ⟨fun _ l hl => ⟨l, hl, rfl⟩, rfl, rfl, ?_, ?_, ?_, ?_, ?_, fun _ => ⟨rfl, rfl, rfl⟩⟩
      . intro hb
        rw [hdesk.1] at hb
        cases hb
      . intros
        simp [state, setQueue, QS_DESKTIMER, QS_NOTIFYMSG]
      . intros
        simp [state, setQueue, QS_DESKTIMER, QS_POSTMSG]
      . intros
        simp [state, setQueue, QS_DESKTIMER, QS_PAINT]
      . intro _ hunwanted
        rw [hwanted] at hunwanted
        cases hunwanted
    . exact FilterKept.refl t
  . next hdesk => exact h.stay .deskTimer rfl hdesk

theorem FilterKept.serve (hwanted : isMsgWanted args MSG_TIMER = true) {timerMask : BitVec 32}
    {firstTimerSlot : Nat} (hqueue : u.queue = { t.queue with timerMask, firstTimerSlot })
    : FilterKept env args t u := by
  obtain ⟨queue, timerstr⟩ := u
  dsimp only at hqueue
  rw [hqueue]
  refine ⟨fun _ l hl => ⟨l, hl, rfl⟩, rfl, rfl, fun _ _ => rfl, fun _ => rfl, fun _ => rfl, fun _ => rfl, fun _ _ => rfl, ?_⟩
  intro hunwanted
  rw [hwanted] at hunwanted
  cases hunwanted

theorem peekTimer_filters (s : PeekState κ)
    : Triple (Looked env args s 6) (peekTimer env args) (fun x => Filters env args s (.noMessage x.1 x.2))
        (Filters env args s) := by
  rintro ⟨pMsg, t⟩ h
  have hnone : ¬DeskTimerFirst env args s := fun hfirst => h.asked.2 .deskTimer (by decide) hfirst.1
  -- No message has been found before, so that the filter decides alone.
  have hfilters : ∀ e : PeekExit κ, (∀ found u, e = .ret true found u → isMsgWanted args found.message = true) →
      FilterKept env args t e.state → Filters env args s e := by
    intro e hwanted hkept
    exact ⟨fun hfirst => absurd hfirst hnone, fun _ => ⟨hwanted, h.keeps hkept⟩⟩
  unfold peekTimer
  dsimp only
  split
  . next hmask =>
    split
    . apply hfilters
      . intro found u heq
        rw [ret.injEq] at heq
        rw [← heq.2.1, setPAdd_message]
        exact hmask.2
      dsimp only [state]
      split
      . exact FilterKept.serve hmask.2 rfl
      . exact FilterKept.refl t
    split
    . split
      . apply hfilters
        . intro found u heq
          cases heq
        . exact FilterKept.serve hmask.2 rfl
      apply hfilters
      . intro found u heq
        rw [ret.injEq] at heq
        rw [← heq.2.1, setPAdd_message]
        exact hmask.2
      . exact FilterKept.serve hmask.2 rfl
    . apply hfilters
      . intro found u heq
        cases heq
      . exact FilterKept.serve hmask.2 rfl
  . apply hfilters
    . intro found u heq
      cases heq
    . exact FilterKept.refl t

variable (env args) in
theorem peekSection_filters (pMsg : Msg) (s : PeekState κ) (hring : s.queue.RingOk)
    : Filters env args s (peekSection env args pMsg s) := by
  apply peekSection_rule (fun i x =>
    if i = 7 then Filters env args s (.noMessage x.1 x.2) else Looked env args s i.val x)
  . exact peekQuit_filters s
  . exact peekSync_filters s
  . exact peekNotify_filters s
  . exact peekPosted_filters s hring
  . exact peekPaint_filters s
  . exact peekDeskTimer_filters s
  . exact peekTimer_filters s
  . intro pMsg t h
    exact h
  . exact ⟨⟨Settles.refl s, fun src hsrc => by cases hsrc⟩, fun _ => rfl⟩

end Parts

section Call

structure LockedSection (κ τ : Type) where
  env : PeekEnv τ
  found : PeekState κ
  left : PeekState κ

inductive PeekCall (args : PeekArgs) (bWait : Bool) : Msg → List (LockedSection κ τ) → Bool → Msg → Prop where
  | refused {pMsg : Msg} {isMainWindow : Hwnd → Bool} (h : args.hWnd ≠ HWND_DESKTOP ∧ ¬isMainWindow args.hWnd)
      : PeekCall args bWait pMsg [] false pMsg
  | returns {env : PeekEnv τ} {pMsg found : Msg} {s t : PeekState κ} {result : Bool}
      (h : peekSection env args pMsg s = .ret result found t)
      : PeekCall args bWait pMsg [⟨env, s, t⟩] result found
  | gives_up {env : PeekEnv τ} {pMsg found : Msg} {s t : PeekState κ} (h : peekSection env args pMsg s = .noMessage found t)
      (hwait : bWait = false)
      : PeekCall args bWait pMsg [⟨env, s, t⟩] false found
  | gives_up_called {env : PeekEnv τ} {pMsg found : Msg} {s t : PeekState κ} {timer : Timer κ} {slot : Nat}
      {tickCount : BitVec 32} (h : peekSection env args pMsg s = .callProc timer slot tickCount found t)
      (hwait : bWait = false)
      : PeekCall args bWait pMsg [⟨env, s, t⟩] false found
  | again {env : PeekEnv τ} {pMsg found last : Msg} {s t : PeekState κ} {rest : List (LockedSection κ τ)} {result : Bool}
      (h : peekSection env args pMsg s = .noMessage found t) (hwait : bWait = true)
      (hrest : PeekCall args bWait found rest result last)
      : PeekCall args bWait pMsg (⟨env, s, t⟩ :: rest) result last
  | again_called {env : PeekEnv τ} {pMsg found last : Msg} {s t : PeekState κ} {rest : List (LockedSection κ τ)}
      {result : Bool} {timer : Timer κ} {slot : Nat} {tickCount : BitVec 32}
      (h : peekSection env args pMsg s = .callProc timer slot tickCount found t) (hwait : bWait = true)
      (hrest : PeekCall args bWait found rest result last)
      : PeekCall args bWait pMsg (⟨env, s, t⟩ :: rest) result last

structure FilterSound (args : PeekArgs) (sections : List (LockedSection κ τ)) (result : Bool) (pMsg : Msg) : Prop where
  wanted : result = true → isMsgWanted args pMsg.message = true
  kept : ∀ sec ∈ sections, FilterKept sec.env args sec.found sec.left

def DeskTimerUnwanted (args : PeekArgs) (sec : LockedSection κ τ) : Prop :=
  DeskTimerFirst sec.env args sec.found ∧ isMsgWanted args MSG_TIMER = false

variable {args : PeekArgs} {bWait : Bool} {sections : List (LockedSection κ τ)}

theorem filterSound_of_not_unwanted {last : Msg}
    (hcall : PeekCall args bWait pMsg sections result last) (hring : ∀ sec ∈ sections, sec.found.queue.RingOk)
    (hnot : ∀ sec ∈ sections, ¬DeskTimerUnwanted args sec)
    : FilterSound args sections result last := by
  have hfiltered : ∀ (sec : LockedSection κ τ) (pMsg : Msg) (e : PeekExit κ), sec ∈ sections →
      peekSection sec.env args pMsg sec.found = e → Filtered sec.env args sec.found e := by
    intro sec pMsg e hmem he
    rw [← he]
    exact (peekSection_filters sec.env args pMsg sec.found (hring sec hmem)).2 (hnot sec hmem)
  induction hcall with
  | refused _ => exact ⟨fun hfalse => absurd hfalse (by decide), forall_mem_nil _⟩
  | returns h =>
    have hsec := hfiltered _ _ _ mem_cons_self h
    refine ⟨?_, forall_mem_singleton.mpr hsec.kept⟩
    intro hresult
    rw [hresult] at hsec
    exact hsec.wanted _ _ rfl
  | gives_up h hwait | gives_up_called h hwait =>
    have hsec := hfiltered _ _ _ mem_cons_self h
    exact ⟨fun hfalse => absurd hfalse (by decide), forall_mem_singleton.mpr hsec.kept⟩
  | again h hwait hrest ih | again_called h hwait hrest ih =>
    have hsec := hfiltered _ _ _ mem_cons_self h
    have hlater := ih (fun sec hmem => hring sec (mem_cons_of_mem _ hmem))
      (fun sec hmem => hnot sec (mem_cons_of_mem _ hmem))
      (fun sec pMsg e hmem => hfiltered sec pMsg e (mem_cons_of_mem _ hmem))
    exact ⟨hlater.wanted, forall_mem_cons.mpr ⟨hsec.kept, hlater.kept⟩⟩

theorem returned_of_deskTimerFirst {last : Msg}
    (hcall : PeekCall args bWait pMsg sections result last) (hring : ∀ sec ∈ sections, sec.found.queue.RingOk)
    {sec : LockedSection κ τ} (hmem : sec ∈ sections) (hfirst : DeskTimerFirst sec.env args sec.found)
    : result = true ∧ last.message = MSG_TIMER := by
  have hends : ∀ pMsg : Msg, ∃ found t, peekSection sec.env args pMsg sec.found = .ret true found t
      ∧ found.message = MSG_TIMER :=
    fun pMsg => (peekSection_filters sec.env args pMsg sec.found (hring sec hmem)).1 hfirst
  induction hcall with
  | refused _ => cases hmem
  | returns h =>
    rw [mem_singleton] at hmem
    obtain ⟨found, t, hret, hmsg⟩ := hends _
    rw [hmem, h, ret.injEq] at hret
    rw [hret.2.1]
    exact ⟨hret.1, hmsg⟩
  | gives_up h hwait | gives_up_called h hwait =>
    rw [mem_singleton] at hmem
    obtain ⟨found, t, hret, _⟩ := hends _
    rw [hmem, h] at hret
    cases hret
  | again h hwait hrest ih | again_called h hwait hrest ih =>
    rcases mem_cons.mp hmem with hmem | hmem
    . obtain ⟨found, t, hret, _⟩ := hends _
      rw [hmem, h] at hret
      cases hret
    . exact ih (fun sec hmem => hring sec (mem_cons_of_mem _ hmem)) hmem

/--
The filter is sound exactly in the calls none of whose sections finds the timer of the desktop first while its message
is not wanted.
-/
theorem peekMessageEx_filter {pMsg last : Msg} {sections : List (LockedSection κ τ)} {result : Bool}
    (hcall : PeekCall args bWait pMsg sections result last) (hring : ∀ sec ∈ sections, sec.found.queue.RingOk)
    : FilterSound args sections result last ↔ ∀ sec ∈ sections, ¬DeskTimerUnwanted args sec := by
  constructor
  . intro hsound sec hmem hunwanted
    obtain ⟨hresult, hmessage⟩ := returned_of_deskTimerFirst hcall hring hmem hunwanted.1
    have hwanted := hsound.wanted hresult
    rw [hmessage, hunwanted.2] at hwanted
    cases hwanted
  . exact filterSound_of_not_unwanted hcall hring

end Call

def liteWindows : PeekEnv Unit :=
  { noWindows with build := .lite }

def deskTicked : PeekState Unit :=
  { queue := (initMsgQueue 4).setFlag QS_DESKTIMER, timerstr := fun _ => none }

def peekPaints : PeekArgs :=
  { hWnd := 1, iMsgFilterMin := MSG_PAINT, iMsgFilterMax := MSG_PAINT, uRemoveMsg := PM_REMOVE }

theorem not_filter_sound
    : ¬∀ (args : PeekArgs) (bWait : Bool) (pMsg last : Msg) (sections : List (LockedSection Unit Unit)) (result : Bool),
        PeekCall args bWait pMsg sections result last → (∀ sec ∈ sections, sec.found.queue.RingOk) →
        FilterSound args sections result last := by
  intro hall
  have hcall : PeekCall peekPaints false Msg.zero [⟨liteWindows, deskTicked, ⟨deskTicked.queue.clearFlag QS_DESKTIMER, fun _ => none⟩⟩]
      true { Msg.zero with message := MSG_TIMER } := PeekCall.returns rfl
  have hring : deskTicked.queue.RingOk := ⟨by decide, by decide⟩
  have hsound := hall peekPaints false Msg.zero _ _ true hcall (forall_mem_singleton.mpr hring)
  exact absurd (hsound.wanted rfl) (by decide)

def posted : PeekState Unit :=
  { deskTicked with queue := (queueMessage deskTicked.queue { Msg.zero with hwnd := 1, message := MSG_PAINT }).2 }

theorem peekMessageEx_filter_posted
    : FilterSound peekPaints [⟨liteWindows, posted, ⟨advanceReadpos posted.queue, fun _ => none⟩⟩] true
        { Msg.zero with hwnd := 1, message := MSG_PAINT } := by
  have hring : posted.queue.RingOk := ⟨by decide, by decide⟩
  have hcall : PeekCall peekPaints true Msg.zero [⟨liteWindows, posted, ⟨advanceReadpos posted.queue, fun _ => none⟩⟩] true
      { Msg.zero with hwnd := 1, message := MSG_PAINT } := PeekCall.returns rfl
  apply (peekMessageEx_filter hcall (forall_mem_singleton.mpr hring)).mpr
  rw [forall_mem_singleton]
  intro hunwanted
  apply hunwanted.1.2 .posted (by decide)
  refine ⟨?_, ?_, ?_⟩ <;> decide

end MiniGui
