import MiniGui.Kernel.PostRing

namespace MiniGui

variable {κ τ : Type}

section Looks

variable (env : PeekEnv τ) (args : PeekArgs)

def lookQuit (pMsg : Msg) (s : PeekState κ) : Except Msg Msg :=
  if s.queue.has QS_QUIT then
    .error <|
      setPAdd env.build
        { pMsg with hwnd := args.hWnd, message := MSG_QUIT, wParam := 0, lParam := 0 } none
  else
    .ok pMsg

def lookSync (pMsg : Msg) (s : PeekState κ) : Except Msg Msg :=
  if env.build = .threads ∧ s.queue.has QS_SYNCMSG then
    match s.queue.pFirstSyncMsg with
    | some first =>
      let pMsg := { (env.syncMsg first).msg with pAdd := some first }
      if isMsgWanted args pMsg.message then .error pMsg else .ok pMsg
    | none => .ok pMsg
  else
    .ok pMsg

def lookNotify (pMsg : Msg) (s : PeekState κ) : Except Msg Msg :=
  if s.queue.has QS_NOTIFYMSG then
    match s.queue.notifyMsgs with
    | phead :: _ =>
      let pMsg := setPAdd env.build phead none
      if isMsgWanted args pMsg.message then .error pMsg else .ok pMsg
    | [] => .ok pMsg
  else
    .ok pMsg

def lookPosted (pMsg : Msg) (s : PeekState κ) : Except Msg Msg :=
  if s.queue.has QS_POSTMSG ∧ s.queue.readpos ≠ s.queue.writepos then
    let pMsg := setPAdd env.build (s.queue.msg s.queue.readpos) none
    if isMsgWanted args pMsg.message then
      .error (checkCapturedMouseMessage env pMsg)
    else
      .ok pMsg
  else
    .ok pMsg

def lookPaint (pMsg : Msg) (s : PeekState κ) : Except Msg Msg :=
  if s.queue.has QS_PAINT && isMsgWanted args MSG_PAINT then
    if env.build = .threads ∧ args.hWnd = HWND_DESKTOP then
      .error <|
        setPAdd env.build
          { pMsg with hwnd := args.hWnd, message := MSG_PAINT, wParam := 0, lParam := 0 } none
    else
      let pMsg := setPAdd env.build { pMsg with message := MSG_PAINT, wParam := 0, lParam := 0 } none
      match msgCheckHostedTree env.hostingRoot with
      | some hNeedPaint => .error { pMsg with hwnd := hNeedPaint, lParam := env.invRgn hNeedPaint }
      | none => .ok pMsg
  else
    .ok pMsg

def lookDeskTimer (pMsg : Msg) (s : PeekState κ) : Except Msg Msg :=
  if env.build = .lite ∧ s.queue.has QS_DESKTIMER then
    .error { pMsg with hwnd := HWND_DESKTOP, message := MSG_TIMER, wParam := 0, lParam := 0 }
  else
    .ok pMsg

variable {env args}

def Residue (env : PeekEnv τ) (a b : Msg) : Prop :=
  a.time = b.time ∧ (env.build = .lite → a.pAdd = b.pAdd)

theorem Residue.refl (a : Msg) : Residue env a a :=
  ⟨rfl, fun _ => rfl⟩

theorem Residue.symm {a b : Msg} (h : Residue env a b) : Residue env b a :=
  ⟨h.1.symm, fun hb => (h.2 hb).symm⟩

theorem Residue.trans {a b c : Msg} (h1 : Residue env a b) (h2 : Residue env b c)
    : Residue env a c :=
  ⟨h1.1.trans h2.1, fun hb => (h1.2 hb).trans (h2.2 hb)⟩

variable (env) in
theorem residue_setPAdd (a : Msg) (message : Int) (wParam lParam : BitVec 32)
    : Residue env (setPAdd env.build { a with message, wParam, lParam } none) a := by
  unfold setPAdd Residue
  cases env.build with
  | threads => simp
  | lite => simp

theorem Residue.setPAdd_eq {a b : Msg} (h : Residue env a b) (hwnd : Hwnd) (message : Int)
    (wParam lParam : BitVec 32) : setPAdd env.build { a with hwnd, message, wParam, lParam } none
        =
      setPAdd env.build { b with hwnd, message, wParam, lParam } none := by
  unfold setPAdd
  cases hb : env.build with
  | threads => simp [h.1]
  | lite => simp [h.1, h.2 hb]

def LookAlike (env : PeekEnv τ) : Except Msg Msg → Except Msg Msg → Prop
  | .error a, .error b => a = b
  | .ok a, .ok b => Residue env a b
  | _, _ => False

theorem LookAlike.refl (x : Except Msg Msg) : LookAlike env x x := by
  cases x with
  | error a => rfl
  | ok a => exact Residue.refl a

variable {s t : PeekState κ} {pMsg pMsg' : Msg} (h : Settles env args s t)
include h

variable (hm : Residue env pMsg pMsg')
include hm

theorem lookQuit_alike : LookAlike env (lookQuit env args pMsg s) (lookQuit env args pMsg' t) := by
  rcases h with ⟨d, ht, h⟩
  rw [lookQuit, lookQuit, h QS_QUIT (matters_quit _), hm.setPAdd_eq]
  split
  . rfl
  . exact hm

theorem lookSync_alike : LookAlike env (lookSync env args pMsg s) (lookSync env args pMsg' t) := by
  rcases h with ⟨d, ht, h⟩
  have hq : t.queue.pFirstSyncMsg = s.queue.pFirstSyncMsg := by
    rw [ht]
    rfl
  unfold lookSync
  rw [hq]
  cases hfirst : s.queue.pFirstSyncMsg with
  | none => simpa [LookAlike] using hm
  | some first =>
    rw [h QS_SYNCMSG (matters_sync hfirst)]
    split
    . exact LookAlike.refl _
    . exact hm

theorem lookNotify_alike
    : LookAlike env (lookNotify env args pMsg s) (lookNotify env args pMsg' t) := by
  rcases h with ⟨d, ht, h⟩
  have hq : t.queue.notifyMsgs = s.queue.notifyMsgs := by
    rw [ht]
    rfl
  unfold lookNotify
  rw [hq]
  cases hmsgs : s.queue.notifyMsgs with
  | nil => simpa [LookAlike] using hm
  | cons phead next =>
    rw [h QS_NOTIFYMSG (matters_notify (by simp [hmsgs]))]
    split
    . exact LookAlike.refl _
    . exact hm

theorem lookPosted_alike
    : LookAlike env (lookPosted env args pMsg s) (lookPosted env args pMsg' t) := by
  rcases h with ⟨d, ht, h⟩
  have hr : t.queue.readpos = s.queue.readpos := by
    rw [ht]
    rfl
  have hw : t.queue.writepos = s.queue.writepos := by
    rw [ht]
    rfl
  have hmsg : t.queue.msg = s.queue.msg := by
    rw [ht]
    rfl
  unfold lookPosted
  rw [hr, hw, hmsg]
  by_cases hne : s.queue.readpos = s.queue.writepos
  . simpa [hne, LookAlike] using hm
  rw [h QS_POSTMSG (matters_post hne)]
  split
  . exact LookAlike.refl _
  . exact hm

theorem lookDeskTimer_alike
    : LookAlike env (lookDeskTimer env pMsg s) (lookDeskTimer env pMsg' t) := by
  rcases h with ⟨d, ht, h⟩
  unfold lookDeskTimer
  cases hb : env.build with
  | threads => simpa [LookAlike] using hm
  | lite =>
    rw [h QS_DESKTIMER (matters_deskTimer hb _)]
    split
    . simp [LookAlike, hm.1, hm.2 hb]
    . exact hm

theorem lookPaint_alike
    : LookAlike env (lookPaint env args pMsg s) (lookPaint env args pMsg' t) := by
  rcases h with ⟨d, ht, h⟩
  have hleft := residue_setPAdd env pMsg MSG_PAINT 0 0
  have hright := residue_setPAdd env pMsg' MSG_PAINT 0 0
  unfold lookPaint
  cases hp : paintable env args with
  | true =>
    rw [h QS_PAINT (matters_paint _ hp), hm.setPAdd_eq]
    split
    . split
      . rfl
      split
      . simp only [LookAlike]
        unfold setPAdd
        cases hb : env.build with
        | threads => simp [hm.1]
        | lite => simp [hm.1, hm.2 hb]
      . exact hleft.trans (hm.trans hright.symm)
    . exact hm
  | false =>
    simp only [paintable, Bool.or_eq_false_iff, Bool.and_eq_false_imp, decide_eq_true_eq,
      decide_eq_false_iff_not, Option.isSome_eq_false_iff, Option.isNone_iff_eq_none] at hp
    have hdesk : ¬(env.build = .threads ∧ args.hWnd = HWND_DESKTOP) := fun hd => hp.1 hd.1 hd.2
    rw [hp.2, if_neg hdesk, if_neg hdesk]
    dsimp only
    split
    . split
      . exact hleft.trans (hm.trans hright.symm)
      . exact hleft.trans hm
    . split
      . exact hm.trans hright.symm
      . exact hm

end Looks

variable {q : MsgQueue} {look : Msg → PeekState κ → Except Msg Msg} {part : Msg × PeekState κ → PeekPart κ}
  {result : Bool}

section Parts

def Shows (env : PeekEnv τ) (args : PeekArgs) (result : Bool) (s : PeekState κ) :
    Except Msg Msg → PeekPart κ → Prop
  | .error m, .error (.ret b m' t) =>
    b = result ∧ m' = m ∧ (args.uRemoveMsg ≠ PM_REMOVE → t = s)
  | .ok m, .ok (m', t) => m' = m ∧ Settles env args s t
  | _, _ => False

def IsPart (env : PeekEnv τ) (args : PeekArgs) (result : Bool)
    (look : Msg → PeekState κ → Except Msg Msg) (part : Msg × PeekState κ → PeekPart κ) : Prop :=
  ∀ pMsg s, Shows env args result s (look pMsg s) (part (pMsg, s))

theorem setQueue_unless_remove {args : PeekArgs} {s : PeekState κ} (h : args.uRemoveMsg ≠ PM_REMOVE)
    : s.setQueue (if args.uRemoveMsg = PM_REMOVE then q else s.queue) = s := by
  rw [if_neg h]
  rfl

variable {env : PeekEnv τ} {args : PeekArgs}

theorem peekQuit_isPart : IsPart (κ := κ) env args false (lookQuit env args) (peekQuit env args) := by
  intro pMsg s
  unfold lookQuit peekQuit
  by_cases hq : s.queue.has QS_QUIT = true
  . rw [if_pos hq]
    dsimp only
    rw [if_pos hq]
    exact ⟨rfl, rfl, setQueue_unless_remove⟩
  rw [if_neg hq]
  dsimp only
  rw [if_neg hq]
  exact ⟨rfl, Settles.refl s⟩

theorem peekSync_isPart : IsPart (κ := κ) env args true (lookSync env args) (peekSync env args) := by
  intro pMsg s
  unfold lookSync peekSync
  cases hb : env.build with
  | lite => exact ⟨rfl, Settles.refl s⟩
  | threads =>
    simp only [true_and]
    by_cases hq : s.queue.has QS_SYNCMSG = true
    . rw [if_pos hq, if_pos hq]
      cases hfirst : s.queue.pFirstSyncMsg with
      | none => exact ⟨rfl, Settles.clearFlag s (not_matters_sync hb hfirst)⟩
      | some first =>
        dsimp only
        split
        . exact ⟨rfl, rfl, setQueue_unless_remove⟩
        . exact ⟨rfl, Settles.refl s⟩
    . rw [if_neg hq, if_neg hq]
      exact ⟨rfl, Settles.refl s⟩

theorem peekNotify_isPart
    : IsPart (κ := κ) env args true (lookNotify env args) (peekNotify env args) := by
  intro pMsg s
  unfold lookNotify peekNotify
  dsimp only
  by_cases hq : s.queue.has QS_NOTIFYMSG = true
  . rw [if_pos hq, if_pos hq]
    cases hmsgs : s.queue.notifyMsgs with
    | nil => exact ⟨rfl, Settles.clearFlag s (not_matters_notify hmsgs)⟩
    | cons phead next =>
      dsimp only
      split
      . exact ⟨rfl, rfl, setQueue_unless_remove⟩
      . exact ⟨rfl, Settles.refl s⟩
  . rw [if_neg hq, if_neg hq]
    exact ⟨rfl, Settles.refl s⟩

theorem peekPosted_isPart
    : IsPart (κ := κ) env args true (lookPosted env args) (peekPosted env args) := by
  intro pMsg s
  unfold lookPosted peekPosted
  dsimp only
  by_cases hq : s.queue.has QS_POSTMSG = true
  . rw [if_pos hq]
    by_cases hne : s.queue.readpos ≠ s.queue.writepos
    . rw [if_pos hne, if_pos ⟨hq, hne⟩]
      split
      . exact ⟨rfl, rfl, setQueue_unless_remove⟩
      . exact ⟨rfl, Settles.refl s⟩
    . rw [if_neg hne, if_neg (fun h => hne h.2)]
      rw [ne_eq, not_not] at hne
      exact ⟨rfl, Settles.clearFlag s (not_matters_post hne)⟩
  . rw [if_neg hq, if_neg (fun h => hq h.1)]
    exact ⟨rfl, Settles.refl s⟩

theorem paintable_eq_false (hdesk : ¬(env.build = .threads ∧ args.hWnd = HWND_DESKTOP))
    (hneed : msgCheckHostedTree env.hostingRoot = none) : paintable env args = false := by
  simp only [paintable, hneed, Option.isSome_none, Bool.or_false]
  simpa using hdesk

theorem peekPaint_isPart
    : IsPart (κ := κ) env args true (lookPaint env args) (peekPaint env args) := by
  intro pMsg s
  unfold lookPaint peekPaint
  dsimp only
  split
  . split
    . exact ⟨rfl, rfl, setQueue_unless_remove⟩
    rename_i hdesk
    cases hneed : msgCheckHostedTree env.hostingRoot with
    | some hNeedPaint => exact ⟨rfl, rfl, fun _ => rfl⟩
    | none =>
      exact ⟨rfl, Settles.clearFlag s (not_matters_paint (paintable_eq_false hdesk hneed))⟩
  . exact ⟨rfl, Settles.refl s⟩

theorem peekDeskTimer_isPart
    : IsPart (κ := κ) env args true (lookDeskTimer env) (peekDeskTimer env args) := by
  intro pMsg s
  unfold lookDeskTimer peekDeskTimer
  dsimp only
  by_cases hq : env.build = .lite ∧ s.queue.has QS_DESKTIMER = true
  . rw [if_pos hq, if_pos hq]
    exact ⟨rfl, rfl, setQueue_unless_remove⟩
  . rw [if_neg hq, if_neg hq]
    exact ⟨rfl, Settles.refl s⟩

end Parts

section Simulation

open EarlyReturn

def SameAnswer : PeekExit κ → PeekExit κ → Prop
  | .ret result pMsg _, .ret result' pMsg' _ => result = result' ∧ pMsg = pMsg'
  | .callProc timer slot tickCount _ _, .callProc timer' slot' tickCount' _ _ =>
    timer = timer' ∧ slot = slot' ∧ tickCount = tickCount'
  | .noMessage _ _, .noMessage _ _ => True
  | _, _ => False

def Alike (env : PeekEnv τ) (args : PeekArgs) (x y : Msg × PeekState κ) : Prop :=
  Residue env x.1 y.1 ∧ Settles env args x.2 y.2

variable {env : PeekEnv τ} {args : PeekArgs} {uRemoveMsg : Nat}

variable (uRemoveMsg) in
theorem isPart_alike
    {part' : Msg × PeekState κ → PeekPart κ} (hpart : IsPart env args result look part)
    (hpart' : IsPart env { args with uRemoveMsg } result look part')
    (hlook : ∀ s t pMsg pMsg', Settles env args s t → Residue env pMsg pMsg' →
      LookAlike env (look pMsg s) (look pMsg' t))
    : Rel (Alike (κ := κ) env args) part part' (Alike env args) SameAnswer := by
  rintro ⟨pMsg, s⟩ ⟨pMsg', t⟩ ⟨hm, h⟩
  have hl := hlook s t pMsg pMsg' h hm
  have h1 := hpart pMsg s
  have h2 := hpart' pMsg' t
  generalize look pMsg s = l at hl h1
  generalize look pMsg' t = l' at hl h2
  generalize part (pMsg, s) = r at h1
  generalize part' (pMsg', t) = r' at h2
  unfold Shows at h1 h2
  split at h1
  . next m b m1 t1 =>
    split at h2
    . next m' b' m2 t2 => exact ⟨h1.1.trans h2.1.symm, by rw [h1.2.1, h2.2.1]; exact hl⟩
    . exact hl.elim
    . exact h2.elim
  . next m m1 t1 =>
    split at h2
    . exact hl.elim
    . next m' m2 t2 =>
      refine ⟨?_, h1.2.symm.trans (h.trans h2.2)⟩
      rw [h1.1, h2.1]
      exact hl
    . exact h2.elim
  . exact h1.elim

theorem peekTimer_alike
    : Rel (Alike (κ := κ) env args) (peekTimer env args) (peekTimer env { args with uRemoveMsg })
        (Alike env args) SameAnswer := by
  rintro ⟨pMsg, s⟩ ⟨pMsg', t⟩ ⟨hm, d, ht, h⟩
  subst ht
  have hslot : expiredSlot (withState s d).queue = expiredSlot s.queue := by rfl
  have hmask : (withState s d).queue.timerMask = s.queue.timerMask := by rfl
  have hfirst : (withState s d).queue.firstTimerSlot = s.queue.firstTimerSlot := by rfl
  have htimers : (withState s d).timerstr = s.timerstr := by rfl
  have hwanted : isMsgWanted { args with uRemoveMsg } MSG_TIMER = isMsgWanted args MSG_TIMER := by rfl
  unfold peekTimer
  dsimp only
  rw [hslot, hmask, hfirst, htimers, hwanted]
  split
  . split
    . exact ⟨rfl, hm.setPAdd_eq _ _ _ _⟩
    cases hs : expiredSlot s.queue with
    | none => exact ⟨hm, d, rfl, h⟩
    | some slot =>
      cases hg : getTimer s.timerstr (some slot) with
      | none => exact ⟨hm, d, rfl, h⟩
      | some timer =>
        dsimp only
        split
        . exact ⟨rfl, rfl, rfl⟩
        . exact ⟨rfl, hm.setPAdd_eq _ _ _ _⟩
  . exact ⟨hm, d, rfl, h⟩

variable (uRemoveMsg) in
theorem peekSection_alike {s t : PeekState κ} (h : Settles env args s t) (pMsg : Msg)
    : SameAnswer (peekSection env args pMsg s) (peekSection env { args with uRemoveMsg } pMsg t) := by
  apply peekSection_rel (Alike env args)
  . exact isPart_alike uRemoveMsg peekQuit_isPart
      peekQuit_isPart (fun _ _ _ _ h hm => lookQuit_alike h hm)
  . exact isPart_alike uRemoveMsg peekSync_isPart
      peekSync_isPart (fun _ _ _ _ h hm => lookSync_alike h hm)
  . exact isPart_alike uRemoveMsg peekNotify_isPart
      peekNotify_isPart
      (fun _ _ _ _ h hm => lookNotify_alike h hm)
  . exact isPart_alike uRemoveMsg peekPosted_isPart
      peekPosted_isPart
      (fun _ _ _ _ h hm => lookPosted_alike h hm)
  . exact isPart_alike uRemoveMsg peekPaint_isPart
      peekPaint_isPart
      (fun _ _ _ _ h hm => lookPaint_alike h hm)
  . exact isPart_alike uRemoveMsg peekDeskTimer_isPart
      peekDeskTimer_isPart
      (fun _ _ _ _ h hm => lookDeskTimer_alike h hm)
  . exact peekTimer_alike
  . intro _ _ _ _ _
    trivial
  . exact ⟨Residue.refl pMsg, h⟩

end Simulation

section Pending

inductive Source where
  | quit
  | sync
  | notify
  | posted
  | paint
  | deskTimer
deriving DecidableEq, Repr

def Source.order : List Source :=
  [.quit, .sync, .notify, .posted, .paint, .deskTimer]

def Pending (env : PeekEnv τ) (args : PeekArgs) (q : MsgQueue) : Source → Prop
  | .quit => q.has QS_QUIT = true
  | .sync =>
    env.build = .threads ∧ q.has QS_SYNCMSG = true
      ∧ ∃ first, q.pFirstSyncMsg = some first
          ∧ isMsgWanted args (env.syncMsg first).msg.message = true
  | .notify =>
    q.has QS_NOTIFYMSG = true
      ∧ ∃ phead next, q.notifyMsgs = phead :: next ∧ isMsgWanted args phead.message = true
  | .posted =>
    q.has QS_POSTMSG = true ∧ q.readpos ≠ q.writepos
      ∧ isMsgWanted args (q.msg q.readpos).message = true
  | .paint => q.has QS_PAINT = true ∧ isMsgWanted args MSG_PAINT = true ∧ paintable env args = true
  | .deskTimer => env.build = .lite ∧ q.has QS_DESKTIMER = true

variable {env : PeekEnv τ} {args : PeekArgs}

def IsError : Except Msg Msg → Prop
  | .error _ => True
  | .ok _ => False

@[simp]
theorem setPAdd_message (build : Build) (pMsg : Msg) (value : Option Nat)
    : (setPAdd build pMsg value).message = pMsg.message := by
  cases build <;> rfl

section

variable (pMsg : Msg) (s : PeekState κ)

theorem lookQuit_pending : IsError (lookQuit env args pMsg s) ↔ Pending env args s.queue .quit := by
  unfold lookQuit Pending
  split <;> simp [IsError, *]

theorem lookSync_pending : IsError (lookSync env args pMsg s) ↔ Pending env args s.queue .sync := by
  unfold lookSync Pending
  split
  . next h =>
    cases hfirst : s.queue.pFirstSyncMsg with
    | none => simp [IsError]
    | some first =>
      dsimp only
      split <;> simp [IsError, *]
  rename_i h
  simp only [IsError, false_iff]
  intro hp
  exact h ⟨hp.1, hp.2.1⟩

theorem lookNotify_pending
    : IsError (lookNotify env args pMsg s) ↔ Pending env args s.queue .notify := by
  unfold lookNotify Pending
  split
  . next h =>
    cases hmsgs : s.queue.notifyMsgs with
    | nil => simp [IsError]
    | cons phead next =>
      dsimp only
      rw [setPAdd_message]
      split <;> simp [IsError, *]
  . next h => simp [IsError, h]

theorem lookPosted_pending
    : IsError (lookPosted env args pMsg s) ↔ Pending env args s.queue .posted := by
  unfold lookPosted Pending
  split
  . next h =>
    dsimp only
    rw [setPAdd_message]
    split <;> simp [IsError, *]
  rename_i h
  simp only [IsError, false_iff]
  intro hp
  exact h ⟨hp.1, hp.2.1⟩

theorem lookPaint_pending
    : IsError (lookPaint env args pMsg s) ↔ Pending env args s.queue .paint := by
  unfold lookPaint Pending
  split
  . next h =>
    rw [Bool.and_eq_true] at h
    split
    . next hdesk => simp [IsError, h, paintable, hdesk]
    rename_i hdesk
    cases hneed : msgCheckHostedTree env.hostingRoot with
    | some hNeedPaint => simp [IsError, h, paintable, hneed]
    | none => simp [IsError, paintable_eq_false hdesk hneed]
  rename_i h
  rw [Bool.and_eq_true] at h
  simp only [IsError, false_iff]
  intro hp
  exact h ⟨hp.1, hp.2.1⟩

theorem lookDeskTimer_pending
    : IsError (lookDeskTimer env pMsg s) ↔ Pending env args s.queue .deskTimer := by
  unfold lookDeskTimer Pending
  split
  . next h => simp [IsError, h]
  . next h => simp [IsError, h]

end

theorem LookAlike.isError_iff {x y : Except Msg Msg} (h : LookAlike env x y)
    : IsError x ↔ IsError y := by
  unfold LookAlike at h
  split at h
  . simp [IsError]
  . simp [IsError]
  . exact h.elim

theorem Settles.pending_iff {s t : PeekState κ} (h : Settles env args s t) (src : Source)
    : Pending env args s.queue src ↔ Pending env args t.queue src := by
  have hm : Residue env Msg.zero Msg.zero := Residue.refl _
  cases src with
  | quit =>
    rw [← lookQuit_pending Msg.zero s, ← lookQuit_pending Msg.zero t]
    exact (lookQuit_alike h hm).isError_iff
  | sync =>
    rw [← lookSync_pending Msg.zero s, ← lookSync_pending Msg.zero t]
    exact (lookSync_alike h hm).isError_iff
  | notify =>
    rw [← lookNotify_pending Msg.zero s, ← lookNotify_pending Msg.zero t]
    exact (lookNotify_alike h hm).isError_iff
  | posted =>
    rw [← lookPosted_pending Msg.zero s, ← lookPosted_pending Msg.zero t]
    exact (lookPosted_alike h hm).isError_iff
  | paint =>
    rw [← lookPaint_pending Msg.zero s, ← lookPaint_pending Msg.zero t]
    exact (lookPaint_alike h hm).isError_iff
  | deskTimer =>
    rw [← lookDeskTimer_pending Msg.zero s, ← lookDeskTimer_pending Msg.zero t]
    exact (lookDeskTimer_alike h hm).isError_iff

end Pending

section Purity

open EarlyReturn

def TimerMessageDue (env : PeekEnv τ) (args : PeekArgs) (s : PeekState κ) : Prop :=
  (∀ src, ¬Pending env args s.queue src)
    ∧
  s.queue.timerMask ≠ 0 ∧ isMsgWanted args MSG_TIMER = true
    ∧
  ¬(env.build = .threads ∧ args.hWnd = HWND_DESKTOP)
    ∧
  ∃ slot timer, expiredSlot s.queue = some slot ∧ getTimer s.timerstr (some slot) = some timer
    ∧ timer.proc = none

def Keeps (env : PeekEnv τ) (args : PeekArgs) (s : PeekState κ) (e : PeekExit κ) : Prop :=
  (¬TimerMessageDue env args s → ∀ m t, e = .ret true m t → Settles env args s t)
    ∧
  (TimerMessageDue env args s → ∃ m t, e = .ret true m t ∧ t.queue.timerMask ≠ s.queue.timerMask)

def Asked (env : PeekEnv τ) (args : PeekArgs) (s : PeekState κ) (n : Nat)
    (x : Msg × PeekState κ) : Prop :=
  Settles env args s x.2 ∧ ∀ src ∈ Source.order.take n, ¬Pending env args s.queue src

variable {env : PeekEnv τ} {args : PeekArgs}

theorem isPart_keeps {s : PeekState κ}
    (hrem : args.uRemoveMsg ≠ PM_REMOVE) (hpart : IsPart env args result look part) (n : Nat)
    {src : Source} (hsrc : Source.order.take (n + 1) = Source.order.take n ++ [src])
    (hlook : ∀ pMsg t, IsError (look pMsg t) ↔ Pending env args t.queue src)
    : Triple (Asked env args s n) part (Asked env args s (n + 1)) (Keeps env args s) := by
  rintro ⟨pMsg, t⟩ ⟨hst, hdone⟩
  have h1 := hpart pMsg t
  have h2 := hlook pMsg t
  rw [← hst.pending_iff src] at h2
  generalize look pMsg t = l at h1 h2
  generalize part (pMsg, t) = r at h1
  unfold Shows at h1
  split at h1
  . next m b m1 t1 =>
    have hp : Pending env args s.queue src := h2.mp trivial
    refine ⟨?_, ?_⟩
    . intro _ m' t' heq
      rw [PeekExit.ret.injEq] at heq
      rw [← heq.2.2, h1.2.2 hrem]
      exact hst
    . intro hdue
      exact absurd hp (hdue.1 src)
  . next m m1 t1 =>
    have hp : ¬Pending env args s.queue src := by
      rw [← h2]
      simp [IsError]
    refine ⟨hst.trans h1.2, ?_⟩
    rw [hsrc]
    intro src' hsrc'
    rw [List.mem_append, List.mem_singleton] at hsrc'
    rcases hsrc' with hsrc' | hsrc'
    . exact hdone src' hsrc'
    . rw [hsrc']
      exact hp
  . exact h1.elim

variable {k : Nat}

theorem timerSlotLoop_has {timerMask : BitVec 32} {firstTimerSlot fuel slot : Nat}
    (h : timerSlotLoop timerMask firstTimerSlot fuel slot = some k)
    : Bits.has timerMask k = true := by
  induction fuel generalizing slot with
  | zero => simp [timerSlotLoop] at h
  | succ fuel ih =>
    rw [timerSlotLoop] at h
    split at h
    . next hbit =>
      rw [Option.some.injEq] at h
      rw [← h]
      exact hbit
    dsimp only at h
    split at h
    . simp at h
    . exact ih h

theorem expiredSlot_has (h : expiredSlot q = some k) : Bits.has q.timerMask k = true :=
  timerSlotLoop_has h

theorem clear_ne_of_has {w : Nat} {m : BitVec w} (h : Bits.has m k = true)
    : Bits.clear m k ≠ m := by
  intro heq
  have := congrArg (fun b => Bits.has b k) heq
  simp [h] at this

theorem peekTimer_keeps {s : PeekState κ} (hrem : args.uRemoveMsg ≠ PM_REMOVE)
    : Triple (Asked env args s 6) (peekTimer env args) (fun _ => ¬TimerMessageDue env args s)
        (Keeps env args s) := by
  rintro ⟨pMsg, t⟩ ⟨hst, hdone⟩
  have hnone : ∀ src, ¬Pending env args s.queue src := by
    intro src
    apply hdone
    cases src <;> decide
  dsimp only at hst
  rcases id hst with ⟨d, ht, _⟩
  have hslot : expiredSlot t.queue = expiredSlot s.queue := by
    rw [ht]
    rfl
  have hmask : t.queue.timerMask = s.queue.timerMask := by
    rw [ht]
    rfl
  have htimers : t.timerstr = s.timerstr := by
    rw [ht]
    rfl
  unfold peekTimer
  dsimp only
  rw [hslot, hmask, htimers]
  split
  . next hreach =>
    split
    . next hdesk =>
      refine ⟨?_, ?_⟩
      . intro _ m t' heq
        rw [PeekExit.ret.injEq] at heq
        rw [← heq.2.2]
        exact hst
      . intro hdue
        exact absurd hdesk hdue.2.2.2.1
    rename_i hdesk
    split
    . next slot' slot timer hs hg =>
      split
      . next proc hproc =>
        refine ⟨?_, ?_⟩
        . intro _ m t' heq
          simp at heq
        intro hdue
        rcases hdue.2.2.2.2 with ⟨slot1, timer1, hs1, hg1, hp1⟩
        rw [hs, Option.some.injEq] at hs1
        rw [← hs1, ← hs, hg, Option.some.injEq] at hg1
        rw [← hg1] at hp1
        simp [hp1] at hproc
      rename_i hproc
      have hdue : TimerMessageDue env args s := by
        refine ⟨hnone, hreach.1, hreach.2, hdesk, slot, timer, hs, ?_, hproc⟩
        rw [← hs]
        exact hg
      refine ⟨?_, ?_⟩
      . intro hn
        exact absurd hdue hn
      . intro _
        refine ⟨_, _, rfl, ?_⟩
        exact clear_ne_of_has (expiredSlot_has hs)
    rename_i hno
    intro hdue
    rcases hdue.2.2.2.2 with ⟨slot, timer, hs, hg, _⟩
    rw [← hs] at hg
    exact hno slot timer hs hg
  . next hreach =>
    intro hdue
    exact hreach ⟨hdue.2.1, hdue.2.2.1⟩

theorem peekSection_keeps (hrem : args.uRemoveMsg ≠ PM_REMOVE) (pMsg : Msg) (s : PeekState κ)
    : Keeps env args s (peekSection env args pMsg s) := by
  apply peekSection_rule (fun i =>
    if i = 7 then fun _ => ¬TimerMessageDue env args s else Asked env args s i)
  . exact isPart_keeps hrem peekQuit_isPart 0 rfl lookQuit_pending
  . exact isPart_keeps hrem peekSync_isPart 1 rfl lookSync_pending
  . exact isPart_keeps hrem peekNotify_isPart 2 rfl lookNotify_pending
  . exact isPart_keeps hrem peekPosted_isPart 3 rfl lookPosted_pending
  . exact isPart_keeps hrem peekPaint_isPart 4 rfl lookPaint_pending
  . exact isPart_keeps hrem peekDeskTimer_isPart 5 rfl lookDeskTimer_pending
  . exact peekTimer_keeps hrem
  . intro pMsg' s' hdue
    refine ⟨?_, ?_⟩
    . intro _ m t heq
      simp at heq
    . intro h
      exact absurd h hdue
  . exact ⟨Settles.refl s, by simp⟩

structure StillPending (env : PeekEnv τ) (args : PeekArgs) (s t : PeekState κ) : Prop where
  notifyMsgs : t.queue.notifyMsgs = s.queue.notifyMsgs
  pFirstSyncMsg : t.queue.pFirstSyncMsg = s.queue.pFirstSyncMsg
  pLastSyncMsg : t.queue.pLastSyncMsg = s.queue.pLastSyncMsg
  ring : t.queue.ring = s.queue.ring
  timerMask : t.queue.timerMask = s.queue.timerMask
  timerstr : t.timerstr = s.timerstr
  loopDepth : t.queue.loopDepth = s.queue.loopDepth
  sources : ∀ src, Pending env args t.queue src ↔ Pending env args s.queue src

theorem Settles.stillPending {s t : PeekState κ} (h : Settles env args s t)
    : StillPending env args s t := by
  have hsources := fun src => (h.pending_iff src).symm
  rcases h with ⟨d, rfl, _⟩
  exact ⟨rfl, rfl, rfl, rfl, rfl, rfl, rfl, hsources⟩

abbrev TimerProc (κ : Type) := Timer κ → BitVec 32 → PeekState κ → Bool × PeekState κ

def PeekLaw (env : PeekEnv τ) (args : PeekArgs) (timerProc : TimerProc κ) (pMsg : Msg)
    (s : PeekState κ) : Prop :=
  ∀ m t, peekMessageEx env args timerProc pMsg s = (true, m, t) →
    StillPending env args s t
      ∧
    (∀ pMsg', (peekMessageEx env args timerProc pMsg' t).1 = true
      ∧ (peekMessageEx env args timerProc pMsg' t).2.1 = m)
      ∧
    ∀ pMsg',
      (peekMessageEx env { args with uRemoveMsg := PM_REMOVE } timerProc pMsg' t).1 = true
        ∧ (peekMessageEx env { args with uRemoveMsg := PM_REMOVE } timerProc pMsg' t).2.1 = m

def IsValidWindow (env : PeekEnv τ) (args : PeekArgs) : Prop :=
  args.hWnd = HWND_DESKTOP ∨ env.isMainWindow args.hWnd = true

theorem peekMessageEx_invalid (h : ¬IsValidWindow env args) (timerProc : TimerProc κ) (pMsg : Msg)
    (s : PeekState κ) : peekMessageEx env args timerProc pMsg s = (false, pMsg, s) := by
  unfold IsValidWindow at h
  rw [not_or] at h
  rw [peekMessageEx, if_pos ⟨h.1, by simpa using h.2⟩]

theorem peekMessageEx_valid (h : IsValidWindow env args) (timerProc : TimerProc κ) (pMsg : Msg)
    (s : PeekState κ) : peekMessageEx env args timerProc pMsg s
        =
      match peekSection env args Msg.zero s with
      | .ret result pMsg s => (result, pMsg, s)
      | .callProc timer slot tickCount pMsg s =>
        (false, pMsg,
          peekTimerDone (timerProc timer tickCount s).1 timer slot (timerProc timer tickCount s).2)
      | .noMessage pMsg s => (false, pMsg, s) := by
  have : ¬(args.hWnd ≠ HWND_DESKTOP ∧ ¬env.isMainWindow args.hWnd = true) := by
    rintro ⟨h1, h2⟩
    rcases h with h | h
    . exact h1 h
    . exact h2 h
  exact if_neg this

theorem peekMessageEx_true_iff (h : IsValidWindow env args) {timerProc : TimerProc κ} {pMsg m : Msg}
    {s t : PeekState κ} : peekMessageEx env args timerProc pMsg s = (true, m, t)
        ↔
      peekSection env args Msg.zero s = .ret true m t := by
  rw [peekMessageEx_valid h]
  cases peekSection env args Msg.zero s <;> simp

theorem peekMessageEx_again (uRemoveMsg : Nat) (h : IsValidWindow env args) {m : Msg}
    {s t u : PeekState κ} (hst : Settles env args s t)
    (hret : peekSection env args Msg.zero s = .ret true m u) (timerProc : TimerProc κ) (pMsg : Msg)
    : (peekMessageEx env { args with uRemoveMsg } timerProc pMsg t).1 = true
        ∧ (peekMessageEx env { args with uRemoveMsg } timerProc pMsg t).2.1 = m := by
  have hsame := peekSection_alike uRemoveMsg hst Msg.zero
  rw [hret] at hsame
  have h' : IsValidWindow env { args with uRemoveMsg } := h
  rw [peekMessageEx_valid h']
  cases he : peekSection env { args with uRemoveMsg } Msg.zero t with
  | ret result pMsg' t' =>
    rw [he] at hsame
    exact ⟨hsame.1.symm, hsame.2.symm⟩
  | callProc timer slot tickCount pMsg' t' | noMessage pMsg' t' =>
    rw [he] at hsame
    exact hsame.elim

/--
Peeking keeps its law except where a window that is not the desktop is given a message of an expired
timer: that message is taken away whatever the caller asked for.
-/
theorem peekMessageEx_law (hrem : args.uRemoveMsg ≠ PM_REMOVE) (timerProc : TimerProc κ)
    (pMsg : Msg) (s : PeekState κ) : PeekLaw env args timerProc pMsg s
        ↔
      ¬(IsValidWindow env args ∧ TimerMessageDue env args s) := by
  have hkeeps : Keeps env args s (peekSection env args Msg.zero s) := peekSection_keeps hrem _ _
  constructor
  . rintro hlaw ⟨hvalid, hdue⟩
    rcases hkeeps.2 hdue with ⟨m, t, hret, hmask⟩
    have := (hlaw m t ((peekMessageEx_true_iff hvalid).mpr hret)).1
    exact hmask this.timerMask
  intro hnot m t htrue
  by_cases hvalid : IsValidWindow env args
  . have hdue : ¬TimerMessageDue env args s := fun hdue => hnot ⟨hvalid, hdue⟩
    have hret := (peekMessageEx_true_iff hvalid).mp htrue
    have hst := hkeeps.1 hdue m t hret
    refine ⟨hst.stillPending, ?_, ?_⟩
    . intro pMsg'
      exact peekMessageEx_again args.uRemoveMsg hvalid hst hret timerProc pMsg'
    . intro pMsg'
      exact peekMessageEx_again PM_REMOVE hvalid hst hret timerProc pMsg'
  . rw [peekMessageEx_invalid hvalid] at htrue
    simp at htrue

end Purity

def noWindows : PeekEnv Unit :=
  {
    build := .threads
    isMainWindow := fun hWnd => hWnd = 1
    captureWnd := 0
    clientOrigins := fun _ => none
    hostingRoot := .mk (.mk 1 false []) []
    invRgn := fun _ => 0
    syncMsg := fun _ => { msg := Msg.zero, retval := 0, semHandle := (), pNext := none }
  }

def expiredTimer : PeekState Unit :=
  {
    queue := { initMsgQueue 8 with timerMask := 1 }
    timerstr := fun slot =>
      if slot = 0 then
        some
          {
            addr := 0
            hWnd := 1
            id := 100
            speed := 10
            count := 0
            proc := none
            tickCount := 5
            msgQueue := ()
          }
      else
        none
  }

def peekOne : PeekArgs :=
  { hWnd := 1, iMsgFilterMin := 0, iMsgFilterMax := 0, uRemoveMsg := PM_NOREMOVE }

theorem peekMessageEx_takes_timer
    : ¬PeekLaw noWindows peekOne (fun _ _ s => (true, s)) Msg.zero expiredTimer := by
  intro hlaw
  have hsecond := (hlaw _ _ rfl).2.1 Msg.zero
  exact absurd hsecond.1 (by decide)

theorem peekMessageEx_law_posted : PeekLaw noWindows peekOne (fun _ _ s => (true, s)) Msg.zero
        { expiredTimer with queue := (queueMessage expiredTimer.queue Msg.zero).2 } := by
  apply (peekMessageEx_law (by decide) _ _ _).mpr
  rintro ⟨_, hdue⟩
  apply hdue.1 .posted
  refine ⟨?_, ?_, ?_⟩ <;> decide

end MiniGui
