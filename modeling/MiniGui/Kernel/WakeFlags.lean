import MiniGui.Kernel.Threads
import MiniGui.Kernel.ThrowAway

namespace MiniGui

variable {κ τ : Type}

structure FlagsOk (q : MsgQueue) : Prop where
  sync : q.pFirstSyncMsg ≠ none → q.has QS_SYNCMSG = true
  notify : q.notifyMsgs ≠ [] → q.has QS_NOTIFYMSG = true
  post : q.readpos ≠ q.writepos → q.has QS_POSTMSG = true

section Sections

def IsMsgFlag (flag : Nat) : Prop :=
  flag = QS_SYNCMSG ∨ flag = QS_NOTIFYMSG ∨ flag = QS_POSTMSG

theorem FlagsOk.mono {q q' : MsgQueue} (h : FlagsOk q)
    (hsync : q'.pFirstSyncMsg ≠ none → q.pFirstSyncMsg ≠ none)
    (hnotify : q'.notifyMsgs ≠ [] → q.notifyMsgs ≠ [])
    (hpost : q'.readpos ≠ q'.writepos → q.readpos ≠ q.writepos)
    (hflags : ∀ flag, IsMsgFlag flag → q.has flag = true → q'.has flag = true) : FlagsOk q' := by
  constructor
  . intro hne
    apply hflags QS_SYNCMSG (.inl rfl)
    apply h.sync (hsync hne)
  . intro hne
    apply hflags QS_NOTIFYMSG (.inr (.inl rfl))
    apply h.notify (hnotify hne)
  . intro hne
    apply hflags QS_POSTMSG (.inr (.inr rfl))
    apply h.post (hpost hne)

variable {q : MsgQueue} {flag : Nat} {args : PeekArgs} {env : PeekEnv τ} {s t : PeekState κ}

theorem FlagsOk.clearFlag (h : FlagsOk q) (hflag : ¬IsMsgFlag flag)
    : FlagsOk (q.clearFlag flag) := by
  refine h.mono id id id ?_
  intro g hg hhas
  rw [MsgQueue.has_clearFlag, hhas]
  have hne : g ≠ flag := by
    intro heq
    rw [heq] at hg
    exact hflag hg
  simp [hne]

theorem has_setFlag_of_has {g : Nat} (h : q.has g = true) : (q.setFlag flag).has g = true := by
  rw [MsgQueue.has_setFlag, h]
  rfl

theorem FlagsOk.setFlag (h : FlagsOk q) (flag : Nat) : FlagsOk (q.setFlag flag) := by
  refine h.mono id id id ?_
  intro g _ hhas
  apply has_setFlag_of_has hhas

theorem flagsOk_initMsgQueue (len : Nat) : FlagsOk (initMsgQueue len) := by
  constructor
  . intro h
    exact absurd rfl h
  . intro h
    exact absurd rfl h
  . intro h
    exact absurd rfl h

theorem FlagsOk.queueMessage (h : FlagsOk q) (msg : Msg) : FlagsOk (queueMessage q msg).2 := by
  have hpost : ∀ q' : MsgQueue, q'.pFirstSyncMsg = q.pFirstSyncMsg →
      q'.notifyMsgs = q.notifyMsgs → q'.dwState = q.dwState → FlagsOk (q'.setFlag QS_POSTMSG) := by
    intro q' hsync hnotify hstate
    constructor
    . intro hne
      apply has_setFlag_of_has
      rw [MsgQueue.has, hstate]
      apply h.sync
      rw [← hsync]
      exact hne
    . intro hne
      apply has_setFlag_of_has
      rw [MsgQueue.has, hstate]
      apply h.notify
      rw [← hnotify]
      exact hne
    . intro _
      simp [QS_POSTMSG]
  unfold MiniGui.queueMessage
  split
  . apply hpost <;> rfl
  . split
    . exact h
    . apply hpost <;> rfl

theorem FlagsOk.postMessage (h : FlagsOk q) (msg : Msg) : FlagsOk (postMessage q msg).2 := by
  unfold MiniGui.postMessage
  split
  . apply h.setFlag
  . apply h.queueMessage

theorem FlagsOk.sendNotifyMessage (h : FlagsOk q) (msg : Msg)
    : FlagsOk (sendNotifyMessage q msg) := by
  constructor
  . intro hne
    apply has_setFlag_of_has
    apply h.sync hne
  . intro _
    simp [MiniGui.sendNotifyMessage, QS_NOTIFYMSG]
  . intro hne
    apply has_setFlag_of_has
    apply h.post hne

theorem FlagsOk.queueSyncMsg (h : FlagsOk q) (heap : SyncHeap τ) (syncMsg : Nat)
    : FlagsOk (queueSyncMsg q heap syncMsg).1 := by
  have hflag : ∀ q' : MsgQueue, q'.notifyMsgs = q.notifyMsgs → q'.readpos = q.readpos →
      q'.writepos = q.writepos → q'.dwState = q.dwState → FlagsOk (q'.setFlag QS_SYNCMSG) := by
    intro q' hnotify hread hwrite hstate
    constructor
    . intro _
      simp [QS_SYNCMSG]
    . intro hne
      apply has_setFlag_of_has
      rw [MsgQueue.has, hstate]
      apply h.notify
      rw [← hnotify]
      exact hne
    intro hne
    apply has_setFlag_of_has
    rw [MsgQueue.has, hstate]
    apply h.post
    rw [← hread, ← hwrite]
    exact hne
  unfold MiniGui.queueSyncMsg
  split
  . apply hflag <;> rfl
  . apply hflag <;> rfl

theorem flagsOk_cleared {dwState : BitVec 32}
    : FlagsOk { q with dwState := Bits.clear dwState QS_SYNCMSG }
        ↔
      q.pFirstSyncMsg = none
        ∧ (q.notifyMsgs ≠ [] → Bits.has dwState QS_NOTIFYMSG = true)
        ∧ (q.readpos ≠ q.writepos → Bits.has dwState QS_POSTMSG = true) := by
  have hhas : ∀ flag, MsgQueue.has { q with dwState := Bits.clear dwState QS_SYNCMSG } flag
      = (Bits.has dwState flag && decide (flag ≠ QS_SYNCMSG)) := by
    intro flag
    apply Bits.has_clear
  constructor
  . intro h
    refine ⟨?_, ?_, ?_⟩
    . by_contra hne
      have := h.sync hne
      rw [hhas] at this
      simp at this
    . intro hne
      have := h.notify hne
      rw [hhas, Bool.and_eq_true] at this
      exact this.1
    intro hne
    have := h.post hne
    rw [hhas, Bool.and_eq_true] at this
    exact this.1
  rintro ⟨hsync, hnotify, hpost⟩
  constructor
  . intro hne
    exact absurd hsync hne
  . intro hne
    rw [hhas, hnotify hne]
    rfl
  . intro hne
    rw [hhas, hpost hne]
    rfl

theorem FlagsOk.peekPostMessage (h : FlagsOk q) (iMsgFilterMin iMsgFilterMax : Int)
    (uRemoveMsg : Nat)
    : FlagsOk (peekPostMessage q iMsgFilterMin iMsgFilterMax uRemoveMsg).2.2 := by
  unfold MiniGui.peekPostMessage
  split
  . next hflag =>
    split
    . dsimp only
      split
      . dsimp only
        split
        . refine ⟨h.sync, h.notify, ?_⟩
          intro _
          exact hflag
        . exact h
      . exact h
    . exact h
  . exact h

theorem FlagsOk.settles (h : FlagsOk s.queue) (hst : Settles env args s t) : FlagsOk t.queue := by
  rcases hst with ⟨d, rfl, hst⟩
  constructor
  . intro hne
    rcases Option.ne_none_iff_exists'.mp hne with ⟨first, hfirst⟩
    rw [hst QS_SYNCMSG (matters_sync hfirst)]
    apply h.sync hne
  . intro hne
    rw [hst QS_NOTIFYMSG (matters_notify hne)]
    apply h.notify hne
  . intro hne
    rw [hst QS_POSTMSG (matters_post hne)]
    apply h.post hne

theorem FlagsOk.unlessPeeked {q taken : MsgQueue} (h : FlagsOk q) (htaken : FlagsOk taken)
    : FlagsOk (unlessPeeked args taken q) := by
  unfold MiniGui.unlessPeeked
  split
  . exact htaken
  . exact h

theorem FlagsOk.effect {e : PeekExit κ}
    (h : FlagsOk t.queue) (hb : env.build = .threads) (he : Effect env args t e)
    : FlagsOk e.state.queue := by
  cases he with
  | quit pMsg hquit =>
    apply h.unlessPeeked
    unfold takeQuit
    dsimp only
    split
    . apply FlagsOk.clearFlag
      . exact ⟨h.sync, h.notify, h.post⟩
      . simp [IsMsgFlag, QS_QUIT, QS_SYNCMSG, QS_NOTIFYMSG, QS_POSTMSG]
    . exact ⟨h.sync, h.notify, h.post⟩
  | sync first hbuild hsync hfirst => exact h.unlessPeeked ⟨fun _ => hsync, h.notify, h.post⟩
  | notify phead next hnotify hmsgs => exact h.unlessPeeked ⟨h.sync, fun _ => hnotify, h.post⟩
  | posted hpost hne => exact h.unlessPeeked ⟨h.sync, h.notify, fun _ => hpost⟩
  | deskPaint pMsg hpaint =>
    apply h.unlessPeeked
    apply h.clearFlag
    simp [IsMsgFlag, QS_PAINT, QS_SYNCMSG, QS_NOTIFYMSG, QS_POSTMSG]
  | paint pMsg hpaint => exact h
  | deskTimer pMsg hlite hdesk =>
    rw [hb] at hlite
    simp at hlite
  | deskTimers pMsg hmask => exact h.unlessPeeked ⟨h.sync, h.notify, h.post⟩
  | timerProc slot timer pMsg hslot htimer hproc
  | timer slot timer pMsg hslot htimer hproc | noTimer pMsg hnone => exact ⟨h.sync, h.notify, h.post⟩
  | nothing pMsg => exact h

theorem FlagsOk.peekSection (h : FlagsOk s.queue) (env : PeekEnv τ)
    (hb : env.build = .threads) (args : PeekArgs) (pMsg : Msg)
    : FlagsOk (peekSection env args pMsg s).state.queue := by
  rcases peekSection_does env args pMsg s with ⟨t, hst, he⟩
  apply FlagsOk.effect _ hb he
  apply h.settles hst

theorem throwAwayTimers_fields (thrown : Hwnd → Bool) (timerstr : TimerTable κ) (l : List Nat)
    (q : MsgQueue)
    : ∃ timerMask, l.foldl (throwAwayTimer thrown timerstr) q = { q with timerMask } := by
  induction l generalizing q with
  | nil => exact ⟨q.timerMask, rfl⟩
  | cons slot l ih =>
    rw [List.foldl_cons]
    rcases ih (throwAwayTimer thrown timerstr q slot) with ⟨timerMask, heq⟩
    rw [heq]
    unfold throwAwayTimer
    split
    . exact ⟨timerMask, rfl⟩
    . exact ⟨timerMask, rfl⟩

theorem FlagsOk.throwAwayMessages (h : FlagsOk q) (thrown : Hwnd → Bool)
    (heap : SyncHeap τ) (timerstr : TimerTable κ) (fuel : Nat)
    : FlagsOk (throwAwayMessages thrown q heap timerstr fuel).2.1 := by
  unfold MiniGui.throwAwayMessages
  dsimp only
  generalize hq : (MsgQueue.mk _ _ _ _ _ _ _ _ _ _ _) = q'
  rcases throwAwayTimers_fields thrown timerstr (List.range DEF_NR_TIMERS) q'
    with ⟨timerMask, heq⟩
  rw [heq, ← hq]
  refine h.mono ?_ ?_ id (fun _ _ hhas => hhas)
  . intro hne hnone
    rw [hnone, throwAwaySync_none] at hne
    exact hne rfl
  intro hne hnil
  apply hne
  rw [hnil]
  rfl

end Sections

namespace Threads

def AllFlagsOk (s : Threads κ) : Prop :=
  ∀ q, FlagsOk (s.queues q)

def KeepsFlags (s : Threads κ) : Action κ → Prop
  | .store t =>
    ∀ syncMsg dwState rest, s.frames t = .sending syncMsg (.loaded dwState) :: rest →
      (s.queues t).pFirstSyncMsg = none
        ∧ ((s.queues t).notifyMsgs ≠ [] → Bits.has dwState QS_NOTIFYMSG = true)
        ∧ ((s.queues t).readpos ≠ (s.queues t).writepos → Bits.has dwState QS_POSTMSG = true)
  | _ => True

variable [DecidableEq κ] {queue : MsgQueue} {a : Action κ}

theorem allFlagsOk_setQueue {s : Threads κ} {q : κ} (h : s.AllFlagsOk) (hq : FlagsOk queue)
    : (s.setQueue q queue).AllFlagsOk := by
  intro q'
  rw [setQueue_queues]
  by_cases heq : q' = q
  . rw [heq, Function.update_self]
    exact hq
  . rw [Function.update_of_ne heq]
    apply h q'

omit [DecidableEq κ] in
theorem QueueSection.flagsOk {q : κ} {f : MsgQueue → MsgQueue}
    (h : QueueSection a q f) (hq : FlagsOk queue) : FlagsOk (f queue) := by
  cases h with
  | sendNotify msg => apply hq.sendNotifyMessage
  | post msg => apply hq.postMessage
  | queue msg => apply hq.queueMessage
  | peekPost iMsgFilterMin iMsgFilterMax uRemoveMsg => apply hq.peekPostMessage

theorem allFlagsOk_step {s s' : Threads κ} (h : s.AllFlagsOk) (hs : step s a s')
    : s'.AllFlagsOk ↔ s.KeepsFlags a := by
  cases steps_of_exec hs with
  | send t q msg hprog hvalid =>
    simp only [KeepsFlags, iff_true, AllFlagsOk, sent, note_queues]
    apply allFlagsOk_setQueue h
    apply (h q).queueSyncMsg
  | drainTakes t syncMsg rest first hframes hflag hfirst =>
    simp only [KeepsFlags, iff_true, AllFlagsOk, taken, note_queues, setFrames_queues]
    apply allFlagsOk_setQueue h
    exact ⟨fun _ => hflag, (h t).notify, (h t).post⟩
  | drainLeaves t syncMsg rest phase hframes hphase | load t syncMsg rest hframes
  | wake t syncMsg rest hframes hsem | ignores t wndProc msg rest hframes =>
    simp only [KeepsFlags, iff_true]
    exact h
  | store t syncMsg dwState rest hframes =>
    constructor
    . intro hall syncMsg' dwState' rest' hframes'
      rw [hframes, List.cons.injEq, Frame.sending.injEq, Phase.loaded.injEq] at hframes'
      have hq := hall t
      simp only [setFrames_queues, setQueue_queues, Function.update_self] at hq
      rw [hframes'.1.2] at hq
      apply flagsOk_cleared.mp hq
    intro hkeeps
    apply allFlagsOk_setQueue h
    apply flagsOk_cleared.mpr
    apply hkeeps syncMsg dwState rest hframes
  | peekTakes t env args pMsg first queue hprog hfirst hnext hlast hqueue =>
    simp only [KeepsFlags, iff_true, AllFlagsOk, taken, note_queues, setFrames_queues]
    apply allFlagsOk_setQueue h
    rw [hqueue]
    apply FlagsOk.peekSection _ _ rfl
    apply h t
  | peekOther t env args pMsg msg hprog hfirst hlast hpAdd =>
    simp only [KeepsFlags, iff_true]
    have hpeek := allFlagsOk_setQueue (q := t) h
      (FlagsOk.peekSection (s := ⟨s.queues t, s.timerstr⟩) (h t)
        { env with build := .threads, syncMsg := s.heap } rfl args pMsg)
    unfold peeked
    cases msg with
    | none => exact hpeek
    | some msg => exact hpeek
  | cancels t wndProc msg rest hframes hinvalid | procReturns t iRet msg rest hframes =>
    simp only [KeepsFlags, iff_true, AllFlagsOk, answer_queues]
    exact h
  | calls t wndProc msg rest hframes hvalid =>
    simp only [KeepsFlags, iff_true, AllFlagsOk, note_queues]
    exact h
  | queueSection a q f hsection =>
    have hkeeps : s.KeepsFlags a := by
      cases hsection <;> trivial
    simp only [hkeeps, iff_true]
    apply allFlagsOk_setQueue h
    apply hsection.flagsOk (h q)
  | throwAway q mainWindowPtrOfControl hWnd hvalid =>
    simp only [KeepsFlags, iff_true, AllFlagsOk, thrownAway, foldl_cancel_queues]
    apply allFlagsOk_setQueue h
    apply (h q).throwAwayMessages
  | timers timerstr timerMask =>
    simp only [KeepsFlags, iff_true]
    intro q
    exact ⟨(h q).sync, (h q).notify, (h q).post⟩

open Reach

/--
In every run whose steps meet the condition no pending message is without its flag, and a step that does not
meet it loses one.
-/
theorem flags_announce_messages (heap : SyncHeap κ) (timerstr : TimerTable κ) (len : κ → Nat)
    (s : Threads κ) (hs : Reachable step KeepsFlags (init heap timerstr len) s)
    : s.AllFlagsOk ∧ ∀ a s', step s a s' → (s'.AllFlagsOk ↔ s.KeepsFlags a) := by
  have hall : s.AllFlagsOk := by
    apply hs.invariant
    . intro q
      apply flagsOk_initMsgQueue
    . intro t a t' ht hok hstep
      apply (allFlagsOk_step ht hstep).mpr hok
  refine ⟨hall, ?_⟩
  intro a s' hstep
  apply allFlagsOk_step hall hstep

def lateSend : List (Action (Fin 3)) :=
  [
    .send 0 2 { Msg.zero with hwnd := 5 },
    .send 1 0 { Msg.zero with hwnd := 6 },
    .drain 0,
    .dispatch 0 (fun _ => true),
    .procReturns 0 7,
    .drain 0,
    .drain 1,
    .wake 1,
    .load 0,
    .send 1 0 { Msg.zero with hwnd := 6 },
    .store 0
  ]

def start : Threads (Fin 3) :=
  init (fun _ => { msg := Msg.zero, retval := 0, semHandle := 0, pNext := none }) (fun _ => none)
    (fun _ => 8)

theorem flags_announce_until_store
    : ∃ s, (lateSend.take 10).foldlM exec start = some s ∧ (s.queues 0).pFirstSyncMsg = some 2
        ∧ s.AllFlagsOk := by
  have hrun : ((lateSend.take 10).foldlM exec start).map
      (fun s => (s.queues 0).pFirstSyncMsg) = some (some 2) := by
    decide
  rw [Option.map_eq_some_iff] at hrun
  rcases hrun with ⟨s, hs, hqueue⟩
  have hreach : Reachable step KeepsFlags start s := by
    apply Reachable.foldlM (lateSend.take 10) _ hs
    intro a ha t t' hexec
    refine ⟨?_, hexec⟩
    simp only [lateSend, List.take_succ_cons, List.take_zero, List.mem_cons, List.not_mem_nil,
      or_false] at ha
    rcases ha with rfl | rfl | rfl | rfl | rfl | rfl | rfl | rfl | rfl | rfl <;> trivial
  exact ⟨s, hs, hqueue, (flags_announce_messages _ _ _ s hreach).1⟩

theorem flag_lost : ¬∀ s, Reachable step (fun _ _ => True) start s → s.AllFlagsOk := by
  intro h
  have hlost : (lateSend.foldlM exec start).map
      (fun s => ((s.queues 0).pFirstSyncMsg, (s.queues 0).has QS_SYNCMSG)) = some (some 2, false) := by
    decide
  rw [Option.map_eq_some_iff] at hlost
  rcases hlost with ⟨s, hs, hqueue⟩
  rw [Prod.mk.injEq] at hqueue
  have hreach : Reachable step (fun _ _ => True) start s := by
    apply Reachable.foldlM lateSend _ hs
    intro a _ t t' hexec
    exact ⟨trivial, hexec⟩
  have hflag := (h s hreach 0).sync
  rw [hqueue.1, hqueue.2] at hflag
  simp at hflag

end Threads

end MiniGui
