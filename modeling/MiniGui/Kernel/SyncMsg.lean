import MiniGui.Kernel.PeekEffect

namespace MiniGui

open Function

def ERR_MSG_CANCELED : Int := -2

abbrev SyncHeap (τ : Type) := Nat → SyncMsg τ

section Send

variable {τ : Type}

def queueSyncMsg (pMsgQueue : MsgQueue) (heap : SyncHeap τ) (syncMsg : Nat)
    : MsgQueue × SyncHeap τ :=
  match pMsgQueue.pFirstSyncMsg with
  | none =>
    ({
        pMsgQueue with
        pFirstSyncMsg := some syncMsg
        pLastSyncMsg := some syncMsg
      }.setFlag QS_SYNCMSG, heap)
  | some _ =>
    let heap :=
      match pMsgQueue.pLastSyncMsg with
      | some last => update heap last { heap last with pNext := some syncMsg }
      | none => heap
    ({ pMsgQueue with pLastSyncMsg := some syncMsg }.setFlag QS_SYNCMSG, heap)

variable {q : MsgQueue} {heap : SyncHeap τ} {pMsg : Msg} {wndProc : Hwnd → Bool}

theorem queueSyncMsg_first (heap : SyncHeap τ) (syncMsg : Nat) (h : q.pFirstSyncMsg = none)
    : (queueSyncMsg q heap syncMsg).1.pFirstSyncMsg = some syncMsg
        ∧ (queueSyncMsg q heap syncMsg).1.pLastSyncMsg = some syncMsg
        ∧ (queueSyncMsg q heap syncMsg).2 = heap := by
  rw [queueSyncMsg, h]
  exact ⟨rfl, rfl, rfl⟩

theorem queueSyncMsg_next (heap : SyncHeap τ) (syncMsg : Nat) {last : Nat}
    (h : q.pFirstSyncMsg ≠ none) (hlast : q.pLastSyncMsg = some last)
    : (queueSyncMsg q heap syncMsg).1.pFirstSyncMsg = q.pFirstSyncMsg
        ∧ (queueSyncMsg q heap syncMsg).1.pLastSyncMsg = some syncMsg
        ∧ (queueSyncMsg q heap syncMsg).2
            = update heap last { heap last with pNext := some syncMsg } := by
  rcases Option.ne_none_iff_exists'.mp h with ⟨first, hfirst⟩
  rw [queueSyncMsg, hfirst, hlast]
  exact ⟨rfl, rfl, rfl⟩

inductive Drained where
  | dispatch (msg : Msg) (pMsgQueue : MsgQueue)
  | clear
  | done

def drainSyncMsg (pMsgQueue : MsgQueue) (heap : SyncHeap τ) : Drained :=
  if pMsgQueue.has QS_SYNCMSG then
    match pMsgQueue.pFirstSyncMsg with
    | some first =>
      .dispatch { (heap first).msg with pAdd := some first }
        { pMsgQueue with pFirstSyncMsg := (heap first).pNext }
    | none => .clear
  else
    .done

theorem drainSyncMsg_dispatch {queue : MsgQueue} {msg : Msg}
    (h : drainSyncMsg q heap = .dispatch msg queue)
    : q.has QS_SYNCMSG = true ∧ ∃ first, q.pFirstSyncMsg = some first
        ∧ msg = { (heap first).msg with pAdd := some first }
        ∧ queue = { q with pFirstSyncMsg := (heap first).pNext } := by
  unfold drainSyncMsg at h
  split at h
  . next hflag =>
    split at h
    . next first hfirst =>
      rw [Drained.dispatch.injEq] at h
      exact ⟨hflag, first, hfirst, h.1.symm, h.2.symm⟩
    . simp at h
  . simp at h

theorem drainSyncMsg_clear (h : drainSyncMsg q heap = .clear) : q.pFirstSyncMsg = none := by
  unfold drainSyncMsg at h
  split at h
  . split at h
    . simp at h
    . next hnone => exact hnone
  . simp at h

theorem drainSyncMsg_done (h : drainSyncMsg q heap = .done) : q.has QS_SYNCMSG = false := by
  unfold drainSyncMsg at h
  split at h
  . split at h
    . simp at h
    . simp at h
  . next hflag =>
    rw [Bool.not_eq_true] at hflag
    exact hflag

inductive Dispatch where
  | cancel
  | ignore
  | call
deriving DecidableEq

def dispatchMessage (wndProc : Hwnd → Bool) (pMsg : Msg) : Dispatch :=
  if pMsg.hwnd = HWND_INVALID then
    .cancel
  else if pMsg.hwnd = 0 then
    .ignore
  else if wndProc pMsg.hwnd then
    .call
  else
    .ignore

theorem dispatchMessage_cancel (h : dispatchMessage wndProc pMsg = .cancel)
    : pMsg.hwnd = HWND_INVALID := by
  unfold dispatchMessage at h
  split at h
  . next hinvalid => exact hinvalid
  split at h
  . simp at h
  . split at h
    . simp at h
    . simp at h

theorem dispatchMessage_call (h : dispatchMessage wndProc pMsg = .call)
    : pMsg.hwnd ≠ HWND_INVALID := by
  unfold dispatchMessage at h
  split at h
  . simp at h
  . next hvalid => exact hvalid

def storeRetval (heap : SyncHeap τ) (pAdd : Option Nat) (iRet : Int) : SyncHeap τ :=
  match pAdd with
  | some syncMsg => update heap syncMsg { heap syncMsg with retval := iRet }
  | none => heap

end Send

section ThrowAway

variable {κ τ : Type}

def isThrown (mainWindowPtrOfControl : Hwnd → Option Hwnd) (hWnd hwnd : Hwnd) : Bool :=
  hwnd = hWnd || mainWindowPtrOfControl hwnd = some hWnd

variable (thrown : Hwnd → Bool)

def throwAwayMsg (pMsg : Msg) : Msg :=
  if thrown pMsg.hwnd then { pMsg with hwnd := HWND_INVALID } else pMsg

structure ThrownSync (τ : Type) where
  heap : SyncHeap τ
  pFirstSyncMsg : Option Nat
  posted : List Nat

def throwAwaySync (fuel : Nat) (s : ThrownSync τ) (pSyncMsg pSyncPrev : Option Nat)
    : ThrownSync τ :=
  match fuel, pSyncMsg with
  | 0, _ => s
  | _, none => s
  | fuel + 1, some syncMsg =>
    let heap := s.heap
    if thrown (heap syncMsg).msg.hwnd then
      let heap :=
        update heap syncMsg
          {
            heap syncMsg with
            msg := { (heap syncMsg).msg with hwnd := HWND_INVALID }
            retval := ERR_MSG_CANCELED
          }
      match pSyncPrev with
      | some prev =>
        let heap := update heap prev { heap prev with pNext := (heap syncMsg).pNext }
        let s := { s with heap, posted := s.posted ++ [syncMsg] }
        -- The record is the previous one of the next round although it has been unlinked.
        throwAwaySync fuel s (heap syncMsg).pNext (some syncMsg)
      | none =>
        let pSyncMsg := (heap syncMsg).pNext
        let s := { heap, pFirstSyncMsg := pSyncMsg, posted := s.posted ++ [syncMsg] }
        throwAwaySync fuel s pSyncMsg none
    else
      throwAwaySync fuel s (heap syncMsg).pNext (some syncMsg)

def throwAwayPosted (q : MsgQueue) (fuel readpos : Nat) (msg : Nat → Msg) (nCountP : Nat)
    : Nat × (Nat → Msg) :=
  match fuel with
  | 0 => (nCountP, msg)
  | fuel + 1 =>
    if readpos = q.writepos then
      (nCountP, msg)
    else
      let next := if readpos + 1 ≥ q.len then 0 else readpos + 1
      throwAwayPosted q fuel next (update msg readpos (throwAwayMsg thrown (msg readpos)))
        (if thrown (msg readpos).hwnd then nCountP + 1 else nCountP)

def getTimerHwnd (timerstr : TimerTable κ) (slot : Nat) : Hwnd :=
  match getTimer timerstr (some slot) with
  | some timer => timer.hWnd
  | none => 0

def throwAwayTimer (timerstr : TimerTable κ) (q : MsgQueue) (slot : Nat) : MsgQueue :=
  if Bits.has q.timerMask slot && thrown (getTimerHwnd timerstr slot) then
    removeMsgQueueTimerFlag q slot
  else
    q

def throwAwayMessages (pMsgQueue : MsgQueue) (heap : SyncHeap τ) (timerstr : TimerTable κ)
    (fuel : Nat) : Nat × MsgQueue × ThrownSync τ :=
  let nCountN := pMsgQueue.notifyMsgs.countP (fun pMsg => thrown pMsg.hwnd)
  let q := { pMsgQueue with notifyMsgs := pMsgQueue.notifyMsgs.map (throwAwayMsg thrown) }
  let sync :=
    throwAwaySync thrown fuel { heap, pFirstSyncMsg := q.pFirstSyncMsg, posted := [] }
      q.pFirstSyncMsg none
  let q := { q with pFirstSyncMsg := sync.pFirstSyncMsg }
  let posted := throwAwayPosted thrown q q.len q.readpos q.msg 0
  let q := { q with msg := posted.2 }
  let q := (List.range DEF_NR_TIMERS).foldl (throwAwayTimer thrown timerstr) q
  (nCountN + sync.posted.length + posted.1, q, sync)

end ThrowAway

end MiniGui
