import MiniGui.Kernel.Peek

/-!
What one locked section of `PeekMessageEx` can do. It may clear flags that announce nothing on its way to
the first source with a wanted message, and then does what that source asks for.
-/

namespace MiniGui

variable {κ τ : Type}

def paintable (env : PeekEnv τ) (args : PeekArgs) : Bool :=
  (env.build = .threads && args.hWnd = HWND_DESKTOP) || (msgCheckHostedTree env.hostingRoot).isSome

def Matters (env : PeekEnv τ) (args : PeekArgs) (q : MsgQueue) (flag : Nat) : Prop :=
  (flag = QS_SYNCMSG → env.build = .threads → q.pFirstSyncMsg ≠ none)
    ∧
  (flag = QS_NOTIFYMSG → q.notifyMsgs ≠ [])
    ∧
  (flag = QS_POSTMSG → q.readpos ≠ q.writepos)
    ∧
  (flag = QS_PAINT → paintable env args = true)

def withState (s : PeekState κ) (dwState : BitVec 32) : PeekState κ :=
  s.setQueue { s.queue with dwState }

def Settles (env : PeekEnv τ) (args : PeekArgs) (s t : PeekState κ) : Prop :=
  ∃ dwState, t = withState s dwState
    ∧ ∀ flag, Matters env args s.queue flag → t.queue.has flag = s.queue.has flag

section Settles

variable {env : PeekEnv τ} {args : PeekArgs} {s t u : PeekState κ}

theorem Settles.refl (s : PeekState κ) : Settles env args s s :=
  ⟨s.queue.dwState, rfl, fun _ _ => rfl⟩

theorem Settles.trans (h1 : Settles env args s t) (h2 : Settles env args t u)
    : Settles env args s u := by
  rcases h1 with ⟨d1, rfl, h1⟩
  rcases h2 with ⟨d2, rfl, h2⟩
  refine ⟨d2, rfl, ?_⟩
  intro flag hm
  rw [h2 flag hm, h1 flag hm]

theorem Settles.clearFlag (s : PeekState κ) {flag : Nat} (h : ¬Matters env args s.queue flag)
    : Settles env args s (s.setQueue (s.queue.clearFlag flag)) := by
  refine ⟨_, rfl, ?_⟩
  intro g hg
  have hne : g ≠ flag := by
    intro heq
    rw [heq] at hg
    exact h hg
  rw [PeekState.setQueue, MsgQueue.has_clearFlag]
  simp [hne]

theorem Settles.symm (h : Settles env args s t) : Settles env args t s := by
  rcases h with ⟨d, rfl, h⟩
  refine ⟨s.queue.dwState, rfl, ?_⟩
  intro flag hm
  exact (h flag hm).symm

variable {q : MsgQueue}

theorem not_matters_sync (hb : env.build = .threads) (h : q.pFirstSyncMsg = none)
    : ¬Matters env args q QS_SYNCMSG := by
  intro hm
  exact hm.1 rfl hb h

theorem not_matters_notify (h : q.notifyMsgs = []) : ¬Matters env args q QS_NOTIFYMSG := by
  intro hm
  exact hm.2.1 rfl h

theorem not_matters_post (h : q.readpos = q.writepos) : ¬Matters env args q QS_POSTMSG := by
  intro hm
  exact hm.2.2.1 rfl h

theorem not_matters_paint (h : paintable env args = false) : ¬Matters env args q QS_PAINT := by
  intro hm
  have := hm.2.2.2 rfl
  simp [h] at this

theorem matters_quit (q : MsgQueue) : Matters env args q QS_QUIT := by
  simp [Matters, QS_QUIT, QS_SYNCMSG, QS_NOTIFYMSG, QS_POSTMSG, QS_PAINT]

theorem matters_sync {first : Nat} (h : q.pFirstSyncMsg = some first)
    : Matters env args q QS_SYNCMSG := by
  simp [Matters, QS_SYNCMSG, QS_NOTIFYMSG, QS_POSTMSG, QS_PAINT, h]

theorem matters_deskTimer (hb : env.build = .lite) (q : MsgQueue)
    : Matters env args q QS_DESKTIMER := by
  simp [Matters, QS_DESKTIMER, QS_SYNCMSG, QS_NOTIFYMSG, QS_POSTMSG, QS_PAINT, hb]

theorem matters_notify (h : q.notifyMsgs ≠ []) : Matters env args q QS_NOTIFYMSG := by
  simp [Matters, QS_SYNCMSG, QS_NOTIFYMSG, QS_POSTMSG, QS_PAINT, h]

theorem matters_post (h : q.readpos ≠ q.writepos) : Matters env args q QS_POSTMSG := by
  simp [Matters, QS_SYNCMSG, QS_NOTIFYMSG, QS_POSTMSG, QS_PAINT, h]

theorem matters_paint (q : MsgQueue) (h : paintable env args = true)
    : Matters env args q QS_PAINT := by
  simp [Matters, QS_SYNCMSG, QS_NOTIFYMSG, QS_POSTMSG, QS_PAINT, h]

end Settles

section Effect

variable (env : PeekEnv τ) (args : PeekArgs)

def unlessPeeked (taken q : MsgQueue) : MsgQueue :=
  if args.uRemoveMsg = PM_REMOVE then taken else q

def takeQuit (q : MsgQueue) : MsgQueue :=
  let q := { q with loopDepth := q.loopDepth - 1 }
  if q.loopDepth = 0 then q.clearFlag QS_QUIT else q

def takeTimer (s : PeekState κ) (slot : Nat) (timer : Timer κ) : PeekState κ :=
  {
    queue :=
      {
        s.queue with
        firstTimerSlot := (s.queue.firstTimerSlot + 1) % DEF_NR_TIMERS
        timerMask := Bits.clear s.queue.timerMask slot
      }
    timerstr := Function.update s.timerstr slot (some { timer with tickCount := 0 })
  }

inductive Effect (t : PeekState κ) : PeekExit κ → Prop where
  | quit (pMsg : Msg)
      : t.queue.has QS_QUIT = true →
        Effect t (.ret false pMsg (t.setQueue (unlessPeeked args (takeQuit t.queue) t.queue)))
  | sync (first : Nat)
      : env.build = .threads → t.queue.has QS_SYNCMSG = true →
        t.queue.pFirstSyncMsg = some first →
        Effect t
          (.ret true { (env.syncMsg first).msg with pAdd := some first }
            (t.setQueue
              (unlessPeeked args { t.queue with pFirstSyncMsg := (env.syncMsg first).pNext }
                t.queue)))
  | notify (phead : Msg) (next : List Msg)
      : t.queue.has QS_NOTIFYMSG = true → t.queue.notifyMsgs = phead :: next →
        Effect t
          (.ret true (setPAdd env.build phead none)
            (t.setQueue (unlessPeeked args { t.queue with notifyMsgs := next } t.queue)))
  | posted
      : t.queue.has QS_POSTMSG = true → t.queue.readpos ≠ t.queue.writepos →
        Effect t
          (.ret true
            (checkCapturedMouseMessage env (setPAdd env.build (t.queue.msg t.queue.readpos) none))
            (t.setQueue (unlessPeeked args (advanceReadpos t.queue) t.queue)))
  | deskPaint (pMsg : Msg)
      : t.queue.has QS_PAINT = true → (env.build = .threads → pMsg.pAdd = none) →
        Effect t
          (.ret true pMsg
            (t.setQueue (unlessPeeked args (t.queue.clearFlag QS_PAINT) t.queue)))
  | paint (pMsg : Msg)
      : t.queue.has QS_PAINT = true → (env.build = .threads → pMsg.pAdd = none) →
        Effect t (.ret true pMsg t)
  | deskTimer (pMsg : Msg)
      : env.build = .lite → t.queue.has QS_DESKTIMER = true →
        Effect t
          (.ret true pMsg
            (t.setQueue (unlessPeeked args (t.queue.clearFlag QS_DESKTIMER) t.queue)))
  | deskTimers (pMsg : Msg)
      : t.queue.timerMask ≠ 0 → (env.build = .threads → pMsg.pAdd = none) →
        Effect t
          (.ret true pMsg (t.setQueue (unlessPeeked args { t.queue with timerMask := 0 } t.queue)))
  | timerProc (slot : Nat) (timer : Timer κ) (pMsg : Msg)
      : expiredSlot t.queue = some slot → getTimer t.timerstr (some slot) = some timer →
        timer.proc ≠ none →
        Effect t
          (.callProc { timer with tickCount := 0 } slot timer.tickCount pMsg
            (takeTimer t slot timer))
  | timer (slot : Nat) (timer : Timer κ) (pMsg : Msg)
      : expiredSlot t.queue = some slot → getTimer t.timerstr (some slot) = some timer →
        timer.proc = none → pMsg.hwnd = timer.hWnd → pMsg.message = MSG_TIMER →
        pMsg.wParam = BitVec.ofInt 32 timer.id → pMsg.lParam = timer.tickCount →
        (env.build = .threads → pMsg.pAdd = none) →
        Effect t (.ret true pMsg (takeTimer t slot timer))
  | noTimer (pMsg : Msg)
      : getTimer t.timerstr (expiredSlot t.queue) = none →
        Effect t
          (.noMessage pMsg
            (t.setQueue
              {
                t.queue with
                firstTimerSlot := (t.queue.firstTimerSlot + 1) % DEF_NR_TIMERS
              }))
  | nothing (pMsg : Msg) : Effect t (.noMessage pMsg t)

def Does (s : PeekState κ) (e : PeekExit κ) : Prop :=
  ∃ t, Settles env args s t ∧ Effect env args t e

end Effect

section Parts

variable {env : PeekEnv τ} {args : PeekArgs}

open EarlyReturn

theorem setPAdd_fields (build : Build) (pMsg : Msg) (value : Option Nat)
    : (setPAdd build pMsg value).hwnd = pMsg.hwnd
        ∧ (setPAdd build pMsg value).message = pMsg.message
        ∧ (setPAdd build pMsg value).wParam = pMsg.wParam
        ∧ (setPAdd build pMsg value).lParam = pMsg.lParam := by
  cases build <;> exact ⟨rfl, rfl, rfl, rfl⟩

theorem setPAdd_pAdd (build : Build) (pMsg : Msg)
    : build = .threads → (setPAdd build pMsg none).pAdd = none := by
  intro hb
  rw [hb]
  rfl

section

variable (s : PeekState κ)

theorem peekQuit_does
    : Triple (fun x : Msg × PeekState κ => Settles env args s x.2) (peekQuit env args)
        (fun x => Settles env args s x.2) (Does env args s) := by
  rintro ⟨pMsg, t⟩ h
  unfold peekQuit
  dsimp only
  split
  . next hquit => exact ⟨t, h, Effect.quit _ hquit⟩
  . exact h

theorem peekSync_does
    : Triple (fun x : Msg × PeekState κ => Settles env args s x.2) (peekSync env args)
        (fun x => Settles env args s x.2) (Does env args s) := by
  rintro ⟨pMsg, t⟩ h
  unfold peekSync
  dsimp only
  split
  . exact h
  rename_i hb
  split
  . next hflag =>
    split
    . next first hfirst =>
      split
      . exact ⟨t, h, Effect.sync first hb hflag hfirst⟩
      . exact h
    rename_i hnone
    apply h.trans
    apply Settles.clearFlag
    apply not_matters_sync hb hnone
  . exact h

theorem peekNotify_does
    : Triple (fun x : Msg × PeekState κ => Settles env args s x.2) (peekNotify env args)
        (fun x => Settles env args s x.2) (Does env args s) := by
  rintro ⟨pMsg, t⟩ h
  unfold peekNotify
  dsimp only
  split
  . next hflag =>
    split
    . next phead next hmsgs =>
      split
      . exact ⟨t, h, Effect.notify phead next hflag hmsgs⟩
      . exact h
    rename_i hnil
    apply h.trans
    apply Settles.clearFlag
    apply not_matters_notify hnil
  . exact h

theorem peekPosted_does
    : Triple (fun x : Msg × PeekState κ => Settles env args s x.2) (peekPosted env args)
        (fun x => Settles env args s x.2) (Does env args s) := by
  rintro ⟨pMsg, t⟩ h
  unfold peekPosted
  dsimp only
  split
  . next hflag =>
    split
    . next hne =>
      split
      . exact ⟨t, h, Effect.posted hflag hne⟩
      . exact h
    rename_i heq
    apply h.trans
    apply Settles.clearFlag
    apply not_matters_post
    rw [ne_eq, not_not] at heq
    exact heq
  . exact h

theorem peekPaint_does
    : Triple (fun x : Msg × PeekState κ => Settles env args s x.2) (peekPaint env args)
        (fun x => Settles env args s x.2) (Does env args s) := by
  rintro ⟨pMsg, t⟩ h
  unfold peekPaint
  dsimp only
  split
  . next hflag =>
    rw [Bool.and_eq_true] at hflag
    split
    . exact ⟨t, h, Effect.deskPaint _ hflag.1 (setPAdd_pAdd _ _)⟩
    rename_i hdesk
    split
    . exact ⟨t, h, Effect.paint _ hflag.1 (setPAdd_pAdd _ _)⟩
    rename_i hnone
    apply h.trans
    apply Settles.clearFlag
    apply not_matters_paint
    rw [paintable, hnone]
    simpa using hdesk
  . exact h

theorem peekDeskTimer_does
    : Triple (fun x : Msg × PeekState κ => Settles env args s x.2) (peekDeskTimer env args)
        (fun x => Settles env args s x.2) (Does env args s) := by
  rintro ⟨pMsg, t⟩ h
  unfold peekDeskTimer
  dsimp only
  split
  . next hdesk => exact ⟨t, h, Effect.deskTimer _ hdesk.1 hdesk.2⟩
  . exact h

theorem peekTimer_does
    : Triple (fun x : Msg × PeekState κ => Settles env args s x.2) (peekTimer env args)
        (fun x => Does env args s (.noMessage x.1 x.2)) (Does env args s) := by
  rintro ⟨pMsg, t⟩ h
  unfold peekTimer
  dsimp only
  split
  . next hmask =>
    split
    . exact ⟨t, h, Effect.deskTimers _ hmask.1 (setPAdd_pAdd _ _)⟩
    split
    . next slot timer hslot htimer =>
      rw [hslot] at htimer
      split
      . next proc hproc =>
        refine ⟨t, h, Effect.timerProc slot timer _ hslot htimer ?_⟩
        rw [hproc]
        simp
      rename_i hproc
      refine ⟨t, h, Effect.timer slot timer _ hslot htimer hproc ?_ ?_ ?_ ?_ ?_⟩
      . rw [(setPAdd_fields _ _ _).1]
      . rw [(setPAdd_fields _ _ _).2.1]
      . rw [(setPAdd_fields _ _ _).2.2.1]
      . rw [(setPAdd_fields _ _ _).2.2.2]
      . apply setPAdd_pAdd
    rename_i hnone
    refine ⟨t, h, Effect.noTimer _ ?_⟩
    cases hslot : expiredSlot t.queue with
    | none => rfl
    | some slot =>
      cases htimer : getTimer t.timerstr (some slot) with
      | none => rfl
      | some timer =>
        rw [hslot] at hnone
        exact absurd htimer (hnone slot timer rfl)
  . exact ⟨t, h, Effect.nothing _⟩

end

variable (env args) in
theorem peekSection_does (pMsg : Msg) (s : PeekState κ)
    : Does env args s (peekSection env args pMsg s) := by
  apply peekSection_rule (fun i x =>
    if i = 7 then Does env args s (.noMessage x.1 x.2) else Settles env args s x.2)
  . exact peekQuit_does s
  . exact peekSync_does s
  . exact peekNotify_does s
  . exact peekPosted_does s
  . exact peekPaint_does s
  . exact peekDeskTimer_does s
  . exact peekTimer_does s
  . intro pMsg t h
    exact h
  . exact Settles.refl s

end Parts

end MiniGui
