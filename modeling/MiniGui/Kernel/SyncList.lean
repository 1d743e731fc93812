import MiniGui.Kernel.WakeFlags

namespace MiniGui

open Chain Function

namespace Frame

def pAdd : Frame → Option Nat
  | dispatching pMsg => pMsg.pAdd
  | wndProc pMsg => pMsg.pAdd
  | sending _ _ => none

end Frame

section Throw

variable {κ τ : Type}

theorem nextOf_update (heap : SyncHeap τ) (m : Nat) (r : SyncMsg τ)
    : nextOf (update heap m r) = update (nextOf heap) m r.pNext := by
  funext n
  unfold nextOf
  by_cases hn : n = m
  . rw [hn, update_self, update_self]
  . rw [update_of_ne hn, update_of_ne hn]

theorem throwAwayMessages_sync (thrown : Hwnd → Bool) (q : MsgQueue) (heap : SyncHeap τ)
    (timerstr : TimerTable κ) (fuel : Nat) : (throwAwayMessages thrown q heap timerstr fuel).2.2
        = throwAwaySync thrown fuel ⟨heap, q.pFirstSyncMsg, []⟩ q.pFirstSyncMsg none := by
  rfl

theorem throwAwayMessages_first (thrown : Hwnd → Bool) (q : MsgQueue) (heap : SyncHeap τ)
    (timerstr : TimerTable κ) (fuel : Nat)
    : (throwAwayMessages thrown q heap timerstr fuel).2.1.pFirstSyncMsg
        = (throwAwayMessages thrown q heap timerstr fuel).2.2.pFirstSyncMsg := by
  unfold throwAwayMessages
  dsimp only
  generalize hq : (MsgQueue.mk _ _ _ _ _ _ _ _ _ _ _) = q'
  rcases throwAwayTimers_fields thrown timerstr (List.range DEF_NR_TIMERS) q' with ⟨_, heq⟩
  rw [heq, ← hq]

theorem throwAwayMessages_last (thrown : Hwnd → Bool) (q : MsgQueue) (heap : SyncHeap τ)
    (timerstr : TimerTable κ) (fuel : Nat)
    : (throwAwayMessages thrown q heap timerstr fuel).2.1.pLastSyncMsg = q.pLastSyncMsg := by
  unfold throwAwayMessages
  dsimp only
  generalize hq : (MsgQueue.mk _ _ _ _ _ _ _ _ _ _ _) = q'
  rcases throwAwayTimers_fields thrown timerstr (List.range DEF_NR_TIMERS) q' with ⟨_, heq⟩
  rw [heq, ← hq]

theorem queueMessage_sync (q : MsgQueue) (msg : Msg)
    : (queueMessage q msg).2.pFirstSyncMsg = q.pFirstSyncMsg
        ∧ (queueMessage q msg).2.pLastSyncMsg = q.pLastSyncMsg := by
  unfold queueMessage
  split
  . exact ⟨rfl, rfl⟩
  . split
    . exact ⟨rfl, rfl⟩
    . exact ⟨rfl, rfl⟩

end Throw

namespace Threads

variable {κ : Type} [DecidableEq κ]

theorem nextOf_answer (s : Threads κ) (pAdd : Option Nat) (iRet : Int) (e : Life κ)
    : nextOf (s.answer pAdd iRet e).heap = nextOf s.heap := by
  cases pAdd with
  | none => rfl
  | some syncMsg =>
    funext m
    simp only [nextOf, answer, note_heap, semPost_heap, storeRetval]
    by_cases hm : m = syncMsg
    . rw [hm, update_self]
    . rw [update_of_ne hm]

section ThrownAway

variable (s : Threads κ) (q : κ) (thrown : Hwnd → Bool)

theorem thrownAway_queues : (s.thrownAway q thrown).queues
        = update s.queues q
            (throwAwayMessages thrown (s.queues q) s.heap s.timerstr s.fresh).2.1 := by
  unfold thrownAway
  rw [foldl_cancel_queues]
  rfl

theorem thrownAway_heap : (s.thrownAway q thrown).heap
        = (throwAwayMessages thrown (s.queues q) s.heap s.timerstr s.fresh).2.2.heap := by
  unfold thrownAway
  rw [foldl_cancel_heap]

theorem thrownAway_fresh : (s.thrownAway q thrown).fresh = s.fresh := by
  unfold thrownAway
  rw [foldl_cancel_fresh]
  rfl

theorem thrownAway_frames : (s.thrownAway q thrown).frames = s.frames := by
  unfold thrownAway
  rw [foldl_cancel_frames]
  rfl

end ThrownAway

omit [DecidableEq κ] in
theorem QueueSection.sync {a : Action κ} {q : κ} {f : MsgQueue → MsgQueue}
    (h : QueueSection a q f) (queue : MsgQueue)
    : (f queue).pFirstSyncMsg = queue.pFirstSyncMsg ∧ (f queue).pLastSyncMsg = queue.pLastSyncMsg := by
  cases h with
  | sendNotify => exact ⟨rfl, rfl⟩
  | post =>
    unfold postMessage
    split
    . exact ⟨rfl, rfl⟩
    . apply queueMessage_sync
  | queue => apply queueMessage_sync
  | peekPost =>
    dsimp only
    unfold peekPostMessage
    split
    . split
      . dsimp only
        split
        . dsimp only
          split
          . exact ⟨rfl, rfl⟩
          . exact ⟨rfl, rfl⟩
        . exact ⟨rfl, rfl⟩
      . exact ⟨rfl, rfl⟩
    . exact ⟨rfl, rfl⟩

end Threads

end MiniGui
