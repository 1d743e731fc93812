import MiniGui.Kernel.SyncMsg
import MiniGui.Library.Reach

/-!
Threads with message queues that send each other messages. A section of code that holds the lock of a
queue is one step, and so are an access to `dwState` without the lock, the start and the end of a window
procedure, and the return of `sem_wait`.
-/

namespace MiniGui

inductive Phase where
  | drain
  | leaving
  | loaded (dwState : BitVec 32)
  | waiting
deriving DecidableEq, Repr

inductive Frame where
  | dispatching (pMsg : Msg)
  | wndProc (pMsg : Msg)
  | sending (syncMsg : Nat) (phase : Phase)
deriving DecidableEq, Repr

inductive Life (κ : Type) where
  | queued (q : κ)
  | removed
  | called
  | answered (iRet : Int)
  | canceled
deriving DecidableEq, Repr

/--
`frames` lists what a thread is in the middle of, the innermost first, and `history` what has happened to
the sync messages. `fresh` is the next address of a record and `syncSem` the semaphore `sync_msg`.
-/
structure Threads (κ : Type) where
  queues : κ → MsgQueue
  heap : SyncHeap κ
  fresh : Nat
  syncSem : κ → Nat
  frames : κ → List Frame
  timerstr : TimerTable κ
  history : Nat → List (Life κ)

inductive Action (κ : Type) where
  | send (t q : κ) (msg : Msg)
  | drain (t : κ)
  | load (t : κ)
  | store (t : κ)
  | wake (t : κ)
  | peek (t : κ) (env : PeekEnv κ) (args : PeekArgs) (pMsg : Msg)
  | dispatch (t : κ) (wndProc : Hwnd → Bool)
  | procReturns (t : κ) (iRet : Int)
  | sendNotify (q : κ) (msg : Msg)
  | post (q : κ) (msg : Msg)
  | queue (q : κ) (msg : Msg)
  | peekPost (q : κ) (iMsgFilterMin iMsgFilterMax : Int) (uRemoveMsg : Nat)
  | throwAway (q : κ) (mainWindowPtrOfControl : Hwnd → Option Hwnd) (hWnd : Hwnd)
  | timers (timerstr : TimerTable κ) (timerMask : κ → BitVec 32)

namespace Threads

variable {κ : Type}

def init (heap : SyncHeap κ) (timerstr : TimerTable κ) (len : κ → Nat) : Threads κ :=
  {
    queues := fun q => initMsgQueue (len q)
    heap
    fresh := 0
    syncSem := fun _ => 0
    frames := fun _ => []
    timerstr
    history := fun _ => []
  }

def inProgram (s : Threads κ) (t : κ) : Bool :=
  match s.frames t with
  | [] => true
  | .wndProc _ :: _ => true
  | _ => false

def note (s : Threads κ) (pAdd : Option Nat) (e : Life κ) : Threads κ :=
  match pAdd with
  | some syncMsg =>
    { s with history := Function.update s.history syncMsg (s.history syncMsg ++ [e]) }
  | none => s

variable [DecidableEq κ]

def setQueue (s : Threads κ) (q : κ) (queue : MsgQueue) : Threads κ :=
  { s with queues := Function.update s.queues q queue }

def setFrames (s : Threads κ) (t : κ) (frames : List Frame) : Threads κ :=
  { s with frames := Function.update s.frames t frames }

def semPost (s : Threads κ) (syncMsg : Nat) : Threads κ :=
  let sem := (s.heap syncMsg).semHandle
  { s with syncSem := Function.update s.syncSem sem (s.syncSem sem + 1) }

def answer (s : Threads κ) (pAdd : Option Nat) (iRet : Int) (e : Life κ) : Threads κ :=
  match pAdd with
  | some syncMsg =>
    ({ s with heap := storeRetval s.heap pAdd iRet }.semPost syncMsg).note pAdd e
  | none => s

def sent (s : Threads κ) (t q : κ) (msg : Msg) : Threads κ :=
  let syncMsg : SyncMsg κ := { msg, retval := ERR_MSG_CANCELED, semHandle := t, pNext := none }
  let queued := queueSyncMsg (s.queues q) (Function.update s.heap s.fresh syncMsg) s.fresh
  let s' := s.setQueue q queued.1
  let s' := s'.setFrames t (.sending s.fresh .drain :: s.frames t)
  { s' with heap := queued.2, fresh := s.fresh + 1 }.note (some s.fresh) (.queued q)

def send (s : Threads κ) (t q : κ) (msg : Msg) : Option (Threads κ) :=
  if s.inProgram t ∧ msg.hwnd ≠ HWND_INVALID then some (s.sent t q msg) else none

def drain (s : Threads κ) (t : κ) : Option (Threads κ) :=
  match s.frames t with
  | .sending syncMsg .drain :: rest =>
    match drainSyncMsg (s.queues t) s.heap with
    | .dispatch msg queue =>
      let s' := s.setQueue t queue
      let s' := s'.setFrames t (.dispatching msg :: .sending syncMsg .drain :: rest)
      some (s'.note msg.pAdd .removed)
    | .clear => some (s.setFrames t (.sending syncMsg .leaving :: rest))
    | .done => some (s.setFrames t (.sending syncMsg .waiting :: rest))
  | _ => none

def load (s : Threads κ) (t : κ) : Option (Threads κ) :=
  match s.frames t with
  | .sending syncMsg .leaving :: rest =>
    some (s.setFrames t (.sending syncMsg (.loaded (s.queues t).dwState) :: rest))
  | _ => none

def store (s : Threads κ) (t : κ) : Option (Threads κ) :=
  match s.frames t with
  | .sending syncMsg (.loaded dwState) :: rest =>
    let s' := s.setQueue t { s.queues t with dwState := Bits.clear dwState QS_SYNCMSG }
    some (s'.setFrames t (.sending syncMsg .waiting :: rest))
  | _ => none

def wake (s : Threads κ) (t : κ) : Option (Threads κ) :=
  match s.frames t with
  | .sending _ .waiting :: rest =>
    if 0 < s.syncSem t then
      some
        { s.setFrames t rest with syncSem := Function.update s.syncSem t (s.syncSem t - 1) }
    else
      none
  | _ => none

def peekExit (s : Threads κ) (t : κ) (env : PeekEnv κ) (args : PeekArgs) (pMsg : Msg) : PeekExit κ :=
  peekSection { env with build := .threads, syncMsg := s.heap } args pMsg
    { queue := s.queues t, timerstr := s.timerstr }

def peek (s : Threads κ) (t : κ) (env : PeekEnv κ) (args : PeekArgs) (pMsg : Msg)
    : Option (Threads κ) :=
  if s.inProgram t then
    let e := s.peekExit t env args pMsg
    let s' := { s.setQueue t e.state.queue with timerstr := e.state.timerstr }
    match e with
    | .ret true msg _ =>
      if args.uRemoveMsg = PM_REMOVE then
        some ((s'.setFrames t (.dispatching msg :: s.frames t)).note msg.pAdd .removed)
      else
        some s'
    | _ => some s'
  else
    none

def dispatch (s : Threads κ) (t : κ) (wndProc : Hwnd → Bool) : Option (Threads κ) :=
  match s.frames t with
  | .dispatching msg :: rest =>
    match dispatchMessage wndProc msg with
    | .cancel => some ((s.setFrames t rest).answer msg.pAdd ERR_MSG_CANCELED .canceled)
    | .ignore => some (s.setFrames t rest)
    | .call => some ((s.setFrames t (.wndProc msg :: rest)).note msg.pAdd .called)
  | _ => none

def procReturns (s : Threads κ) (t : κ) (iRet : Int) : Option (Threads κ) :=
  match s.frames t with
  | .wndProc msg :: rest => some ((s.setFrames t rest).answer msg.pAdd iRet (.answered iRet))
  | _ => none

def thrownAway (s : Threads κ) (q : κ) (thrown : Hwnd → Bool) : Threads κ :=
  let r := throwAwayMessages thrown (s.queues q) s.heap s.timerstr s.fresh
  let s' := { s.setQueue q r.2.1 with heap := r.2.2.heap }
  r.2.2.posted.foldl (fun s m => (s.semPost m).note (some m) .canceled) s'

def throwAway (s : Threads κ) (q : κ) (mainWindowPtrOfControl : Hwnd → Option Hwnd) (hWnd : Hwnd)
    : Option (Threads κ) :=
  if hWnd ≠ 0 ∧ hWnd ≠ HWND_INVALID then
    some (s.thrownAway q (isThrown mainWindowPtrOfControl hWnd))
  else
    none

def exec (s : Threads κ) : Action κ → Option (Threads κ)
  | .send t q msg => s.send t q msg
  | .drain t => s.drain t
  | .load t => s.load t
  | .store t => s.store t
  | .wake t => s.wake t
  | .peek t env args pMsg => s.peek t env args pMsg
  | .dispatch t wndProc => s.dispatch t wndProc
  | .procReturns t iRet => s.procReturns t iRet
  | .sendNotify q msg => some (s.setQueue q (sendNotifyMessage (s.queues q) msg))
  | .post q msg => some (s.setQueue q (postMessage (s.queues q) msg).2)
  | .queue q msg => some (s.setQueue q (queueMessage (s.queues q) msg).2)
  | .peekPost q iMsgFilterMin iMsgFilterMax uRemoveMsg =>
    some
      (s.setQueue q
        (peekPostMessage (s.queues q) iMsgFilterMin iMsgFilterMax uRemoveMsg).2.2)
  | .throwAway q mainWindowPtrOfControl hWnd => s.throwAway q mainWindowPtrOfControl hWnd
  | .timers timerstr timerMask =>
    some
      {
        s with
        timerstr
        queues := fun q => { s.queues q with timerMask := timerMask q }
      }

def step (s : Threads κ) (a : Action κ) (s' : Threads κ) : Prop :=
  s.exec a = some s'

variable {κ : Type} [DecidableEq κ]

section Fields

variable (s : Threads κ) (t q : κ) (queue : MsgQueue) (frames : List Frame) (syncMsg : Nat)
variable (pAdd : Option Nat) (iRet : Int) (e : Life κ)

@[simp]
theorem setQueue_queues : (s.setQueue q queue).queues = Function.update s.queues q queue := rfl

@[simp]
theorem setFrames_queues : (s.setFrames t frames).queues = s.queues := rfl

@[simp]
theorem setFrames_frames : (s.setFrames t frames).frames = Function.update s.frames t frames := rfl

@[simp]
theorem semPost_queues : (s.semPost syncMsg).queues = s.queues := rfl

@[simp]
theorem semPost_heap : (s.semPost syncMsg).heap = s.heap := rfl

@[simp]
theorem semPost_fresh : (s.semPost syncMsg).fresh = s.fresh := rfl

@[simp]
theorem semPost_frames : (s.semPost syncMsg).frames = s.frames := rfl

omit [DecidableEq κ] in
@[simp]
theorem note_queues : (s.note pAdd e).queues = s.queues := by
  cases pAdd <;> rfl

omit [DecidableEq κ] in
@[simp]
theorem note_heap : (s.note pAdd e).heap = s.heap := by
  cases pAdd <;> rfl

omit [DecidableEq κ] in
@[simp]
theorem note_fresh : (s.note pAdd e).fresh = s.fresh := by
  cases pAdd <;> rfl

omit [DecidableEq κ] in
@[simp]
theorem note_frames : (s.note pAdd e).frames = s.frames := by
  cases pAdd <;> rfl

@[simp]
theorem answer_queues : (s.answer pAdd iRet e).queues = s.queues := by
  cases pAdd <;> rfl

@[simp]
theorem answer_fresh : (s.answer pAdd iRet e).fresh = s.fresh := by
  cases pAdd <;> rfl

@[simp]
theorem answer_frames : (s.answer pAdd iRet e).frames = s.frames := by
  cases pAdd <;> rfl

end Fields

section Cancel

variable (posted : List Nat) (s : Threads κ)

theorem foldl_cancel_queues
    : (posted.foldl (fun s m => (s.semPost m).note (some m) .canceled) s).queues = s.queues := by
  induction posted generalizing s with
  | nil => rfl
  | cons m posted ih =>
    rw [List.foldl_cons, ih, note_queues, semPost_queues]

theorem foldl_cancel_heap
    : (posted.foldl (fun s m => (s.semPost m).note (some m) .canceled) s).heap = s.heap := by
  induction posted generalizing s with
  | nil => rfl
  | cons m posted ih =>
    rw [List.foldl_cons, ih, note_heap, semPost_heap]

theorem foldl_cancel_fresh
    : (posted.foldl (fun s m => (s.semPost m).note (some m) .canceled) s).fresh = s.fresh := by
  induction posted generalizing s with
  | nil => rfl
  | cons m posted ih =>
    rw [List.foldl_cons, ih, note_fresh, semPost_fresh]

theorem foldl_cancel_frames
    : (posted.foldl (fun s m => (s.semPost m).note (some m) .canceled) s).frames = s.frames := by
  induction posted generalizing s with
  | nil => rfl
  | cons m posted ih =>
    rw [List.foldl_cons, ih, note_frames, semPost_frames]

end Cancel

section Cases

def taken (s : Threads κ) (t : κ) (first : Nat) (queue : MsgQueue) : Threads κ :=
  let msg := { (s.heap first).msg with pAdd := some first }
  ((s.setQueue t queue).setFrames t (.dispatching msg :: s.frames t)).note (some first) .removed

def peeked (s : Threads κ) (t : κ) (e : PeekExit κ) (msg : Option Msg) : Threads κ :=
  let s' := { s.setQueue t e.state.queue with timerstr := e.state.timerstr }
  match msg with
  | some msg => s'.setFrames t (.dispatching msg :: s.frames t)
  | none => s'

inductive QueueSection : Action κ → κ → (MsgQueue → MsgQueue) → Prop where
  | sendNotify (q : κ) (msg : Msg)
      : QueueSection (.sendNotify q msg) q (fun queue => sendNotifyMessage queue msg)
  | post (q : κ) (msg : Msg) : QueueSection (.post q msg) q (fun queue => (postMessage queue msg).2)
  | queue (q : κ) (msg : Msg)
      : QueueSection (.queue q msg) q (fun queue => (queueMessage queue msg).2)
  | peekPost (q : κ) (iMsgFilterMin iMsgFilterMax : Int) (uRemoveMsg : Nat)
      : QueueSection (.peekPost q iMsgFilterMin iMsgFilterMax uRemoveMsg) q
          (fun queue => (peekPostMessage queue iMsgFilterMin iMsgFilterMax uRemoveMsg).2.2)

inductive Steps (s : Threads κ) : Action κ → Threads κ → Prop where
  | send (t q : κ) (msg : Msg)
      : s.inProgram t = true → msg.hwnd ≠ HWND_INVALID → Steps s (.send t q msg) (s.sent t q msg)
  | drainTakes (t : κ) (syncMsg : Nat) (rest : List Frame) (first : Nat)
      : s.frames t = .sending syncMsg .drain :: rest → (s.queues t).has QS_SYNCMSG = true →
        (s.queues t).pFirstSyncMsg = some first →
        Steps s (.drain t)
          (s.taken t first { s.queues t with pFirstSyncMsg := (s.heap first).pNext })
  | drainLeaves (t : κ) (syncMsg : Nat) (rest : List Frame) (phase : Phase)
      : s.frames t = .sending syncMsg .drain :: rest →
        (phase = .leaving ∧ (s.queues t).pFirstSyncMsg = none
          ∨ phase = .waiting ∧ (s.queues t).has QS_SYNCMSG = false) →
        Steps s (.drain t) (s.setFrames t (.sending syncMsg phase :: rest))
  | load (t : κ) (syncMsg : Nat) (rest : List Frame)
      : s.frames t = .sending syncMsg .leaving :: rest →
        Steps s (.load t)
          (s.setFrames t (.sending syncMsg (.loaded (s.queues t).dwState) :: rest))
  | store (t : κ) (syncMsg : Nat) (dwState : BitVec 32) (rest : List Frame)
      : s.frames t = .sending syncMsg (.loaded dwState) :: rest →
        Steps s (.store t)
          ((s.setQueue t
              { s.queues t with dwState := Bits.clear dwState QS_SYNCMSG }).setFrames t
            (.sending syncMsg .waiting :: rest))
  | wake (t : κ) (syncMsg : Nat) (rest : List Frame)
      : s.frames t = .sending syncMsg .waiting :: rest → 0 < s.syncSem t →
        Steps s (.wake t)
          { s.setFrames t rest with syncSem := Function.update s.syncSem t (s.syncSem t - 1) }
  | peekTakes (t : κ) (env : PeekEnv κ) (args : PeekArgs) (pMsg : Msg) (first : Nat)
      (queue : MsgQueue)
      : s.inProgram t = true → (s.queues t).pFirstSyncMsg = some first →
        queue.pFirstSyncMsg = (s.heap first).pNext →
        queue.pLastSyncMsg = (s.queues t).pLastSyncMsg →
        queue = (s.peekExit t env args pMsg).state.queue →
        Steps s (.peek t env args pMsg) (s.taken t first queue)
  | peekOther (t : κ) (env : PeekEnv κ) (args : PeekArgs) (pMsg : Msg) (msg : Option Msg)
      : s.inProgram t = true →
        (s.peekExit t env args pMsg).state.queue.pFirstSyncMsg = (s.queues t).pFirstSyncMsg →
        (s.peekExit t env args pMsg).state.queue.pLastSyncMsg = (s.queues t).pLastSyncMsg →
        (∀ m, msg = some m → m.pAdd = none) →
        Steps s (.peek t env args pMsg) (s.peeked t (s.peekExit t env args pMsg) msg)
  | cancels (t : κ) (wndProc : Hwnd → Bool) (msg : Msg) (rest : List Frame)
      : s.frames t = .dispatching msg :: rest → msg.hwnd = HWND_INVALID →
        Steps s (.dispatch t wndProc)
          ((s.setFrames t rest).answer msg.pAdd ERR_MSG_CANCELED .canceled)
  | ignores (t : κ) (wndProc : Hwnd → Bool) (msg : Msg) (rest : List Frame)
      : s.frames t = .dispatching msg :: rest →
        Steps s (.dispatch t wndProc) (s.setFrames t rest)
  | calls (t : κ) (wndProc : Hwnd → Bool) (msg : Msg) (rest : List Frame)
      : s.frames t = .dispatching msg :: rest → msg.hwnd ≠ HWND_INVALID →
        Steps s (.dispatch t wndProc)
          ((s.setFrames t (.wndProc msg :: rest)).note msg.pAdd .called)
  | procReturns (t : κ) (iRet : Int) (msg : Msg) (rest : List Frame)
      : s.frames t = .wndProc msg :: rest →
        Steps s (.procReturns t iRet) ((s.setFrames t rest).answer msg.pAdd iRet (.answered iRet))
  | queueSection (a : Action κ) (q : κ) (f : MsgQueue → MsgQueue)
      : QueueSection a q f → Steps s a (s.setQueue q (f (s.queues q)))
  | throwAway (q : κ) (mainWindowPtrOfControl : Hwnd → Option Hwnd) (hWnd : Hwnd)
      : hWnd ≠ HWND_INVALID →
        Steps s (.throwAway q mainWindowPtrOfControl hWnd)
          (s.thrownAway q (isThrown mainWindowPtrOfControl hWnd))
  | timers (timerstr : TimerTable κ) (timerMask : κ → BitVec 32)
      : Steps s (.timers timerstr timerMask)
          {
            s with
            timerstr
            queues := fun q => { s.queues q with timerMask := timerMask q }
          }

omit [DecidableEq κ] in
theorem checkCaptured_pAdd (env : PeekEnv κ) (pMsg : Msg)
    : (checkCapturedMouseMessage env pMsg).pAdd = pMsg.pAdd := by
  unfold checkCapturedMouseMessage
  split <;> rfl

omit [DecidableEq κ] in
theorem unlessPeeked_sync (args : PeekArgs) {q taken queue : MsgQueue}
    (hq : q.pFirstSyncMsg = queue.pFirstSyncMsg ∧ q.pLastSyncMsg = queue.pLastSyncMsg)
    (htaken : taken.pFirstSyncMsg = queue.pFirstSyncMsg ∧ taken.pLastSyncMsg = queue.pLastSyncMsg)
    : (unlessPeeked args taken q).pFirstSyncMsg = queue.pFirstSyncMsg
        ∧ (unlessPeeked args taken q).pLastSyncMsg = queue.pLastSyncMsg := by
  unfold unlessPeeked
  split
  . exact htaken
  . exact hq

def LeavesSync (s : Threads κ) (t : κ) (args : PeekArgs) (e : PeekExit κ) : Prop :=
  e.state.queue.pFirstSyncMsg = (s.queues t).pFirstSyncMsg
    ∧ e.state.queue.pLastSyncMsg = (s.queues t).pLastSyncMsg
    ∧ ∀ m u, e = .ret true m u → args.uRemoveMsg = PM_REMOVE → m.pAdd = none

omit [DecidableEq κ] in
theorem peekExit_cases (s : Threads κ) (t : κ) (env : PeekEnv κ) (args : PeekArgs) (pMsg : Msg)
    : (∃ first queue timerstr,
        (s.queues t).pFirstSyncMsg = some first ∧ queue.pFirstSyncMsg = (s.heap first).pNext
          ∧ queue.pLastSyncMsg = (s.queues t).pLastSyncMsg ∧ timerstr = s.timerstr
          ∧ args.uRemoveMsg = PM_REMOVE
          ∧ s.peekExit t env args pMsg
              = .ret true { (s.heap first).msg with pAdd := some first } { queue, timerstr })
        ∨
      s.LeavesSync t args (s.peekExit t env args pMsg) := by
  have hdoes := peekSection_does { env with build := .threads, syncMsg := s.heap } args pMsg
    { queue := s.queues t, timerstr := s.timerstr }
  rcases hdoes with ⟨u, ⟨d, hu, _⟩, he⟩
  rw [← peekExit] at he
  have hq : u.queue.pFirstSyncMsg = (s.queues t).pFirstSyncMsg
      ∧ u.queue.pLastSyncMsg = (s.queues t).pLastSyncMsg := by
    rw [hu]
    exact ⟨rfl, rfl⟩
  generalize s.peekExit t env args pMsg = e at he ⊢
  have hother : ∀ result msg (taken : MsgQueue),
      taken.pFirstSyncMsg = (s.queues t).pFirstSyncMsg →
      taken.pLastSyncMsg = (s.queues t).pLastSyncMsg → (result = true → msg.pAdd = none) →
      s.LeavesSync t args (.ret result msg (u.setQueue (unlessPeeked args taken u.queue))) := by
    intro result msg taken hfirst hlast hpAdd
    have hsync := unlessPeeked_sync args hq ⟨hfirst, hlast⟩
    refine ⟨hsync.1, hsync.2, ?_⟩
    intro m v heq _
    rw [PeekExit.ret.injEq] at heq
    rw [← heq.2.1]
    apply hpAdd heq.1
  cases he with
  | quit pMsg' hquit =>
    apply Or.inr
    have htaken : (takeQuit u.queue).pFirstSyncMsg = u.queue.pFirstSyncMsg
        ∧ (takeQuit u.queue).pLastSyncMsg = u.queue.pLastSyncMsg := by
      unfold takeQuit
      dsimp only
      split
      . exact ⟨rfl, rfl⟩
      . exact ⟨rfl, rfl⟩
    apply hother
    . rw [htaken.1, hq.1]
    . rw [htaken.2, hq.2]
    . simp
  | sync first hb hflag hfirst =>
    by_cases hrem : args.uRemoveMsg = PM_REMOVE
    . apply Or.inl
      rw [unlessPeeked, if_pos hrem]
      refine ⟨first, _, u.timerstr, ?_, ?_, ?_, ?_, hrem, rfl⟩
      . rw [← hq.1]
        exact hfirst
      . rfl
      . exact hq.2
      . rw [hu]
        rfl
    apply Or.inr
    rw [unlessPeeked, if_neg hrem]
    refine ⟨hq.1, hq.2, ?_⟩
    intro _ _ _ hrem'
    exact absurd hrem' hrem
  | notify phead next hflag hmsgs =>
    apply Or.inr
    exact hother _ _ _ hq.1 hq.2 (fun _ => rfl)
  | posted hflag hne =>
    apply Or.inr
    refine hother _ _ (advanceReadpos u.queue) hq.1 hq.2 ?_
    intro _
    rw [checkCaptured_pAdd]
    rfl
  | deskPaint pMsg' hpaint hpAdd | deskTimers pMsg' hmask hpAdd =>
    apply Or.inr
    exact hother _ _ _ hq.1 hq.2 (fun _ => hpAdd rfl)
  | paint pMsg' hpaint hpAdd | timer slot timer pMsg' hslot htimer hproc hhwnd hmsg hwp hlp hpAdd =>
    apply Or.inr
    refine ⟨hq.1, hq.2, ?_⟩
    intro m v heq _
    rw [PeekExit.ret.injEq] at heq
    rw [← heq.2.1]
    apply hpAdd rfl
  | deskTimer pMsg' hb hflag => simp at hb
  | timerProc slot timer pMsg' hslot htimer hproc | noTimer pMsg' hnone | nothing pMsg' =>
    apply Or.inr
    refine ⟨hq.1, hq.2, ?_⟩
    intro m v heq _
    simp at heq

theorem peek_steps {s s' : Threads κ} {t : κ} {env : PeekEnv κ} {args : PeekArgs} {pMsg : Msg}
    (h : s.peek t env args pMsg = some s')
    : Steps s (.peek t env args pMsg) s' := by
  unfold peek at h
  split at h
  . next hprog =>
    rcases peekExit_cases s t env args pMsg
      with ⟨first, queue, timerstr, hfirst, hnext, hlast, htimers, hrem, he⟩ | ⟨hfirst, hlast, hpAdd⟩
    . have hqueue : queue = (s.peekExit t env args pMsg).state.queue := by
        rw [he]
        rfl
      rw [he] at h
      simp only [hrem, ↓reduceIte, Option.some.injEq] at h
      rw [← h, htimers]
      exact Steps.peekTakes t env args pMsg first queue hprog hfirst hnext hlast hqueue
    dsimp only at h
    split at h
    . next msg u he =>
      split at h
      . next hrem =>
        have hnone := hpAdd msg u he hrem
        rw [hnone, Option.some.injEq] at h
        rw [← h]
        apply Steps.peekOther t env args pMsg (some msg) hprog hfirst hlast
        intro m hm
        rw [Option.some.injEq] at hm
        rw [← hm]
        exact hnone
      . rw [Option.some.injEq] at h
        rw [← h]
        apply Steps.peekOther t env args pMsg none hprog hfirst hlast
        simp
    . rw [Option.some.injEq] at h
      rw [← h]
      apply Steps.peekOther t env args pMsg none hprog hfirst hlast
      simp
  . simp at h

theorem steps_of_exec {s s' : Threads κ} {a : Action κ} (h : s.exec a = some s')
    : Steps s a s' := by
  cases a with
  | send t q msg =>
    simp only [exec, send] at h
    split at h
    . next hc =>
      rw [Option.some.injEq] at h
      rw [← h]
      apply Steps.send t q msg hc.1 hc.2
    . simp at h
  | drain t =>
    simp only [exec, drain] at h
    split at h
    . next syncMsg rest hframes =>
      split at h
      . next msg queue hdrain =>
        rcases drainSyncMsg_dispatch hdrain with ⟨hflag, first, hfirst, hmsg, hqueue⟩
        rw [Option.some.injEq] at h
        rw [← h, hmsg, hqueue, ← hframes]
        apply Steps.drainTakes t syncMsg rest first hframes hflag hfirst
      . next hdrain =>
        rw [Option.some.injEq] at h
        rw [← h]
        apply Steps.drainLeaves t syncMsg rest .leaving hframes
        apply Or.inl
        exact ⟨rfl, drainSyncMsg_clear hdrain⟩
      rename_i hdrain
      rw [Option.some.injEq] at h
      rw [← h]
      apply Steps.drainLeaves t syncMsg rest .waiting hframes
      apply Or.inr
      exact ⟨rfl, drainSyncMsg_done hdrain⟩
    . simp at h
  | load t =>
    simp only [exec, load] at h
    split at h
    . next syncMsg rest hframes =>
      rw [Option.some.injEq] at h
      rw [← h]
      apply Steps.load t syncMsg rest hframes
    . simp at h
  | store t =>
    simp only [exec, store] at h
    split at h
    . next syncMsg dwState rest hframes =>
      rw [Option.some.injEq] at h
      rw [← h]
      apply Steps.store t syncMsg dwState rest hframes
    . simp at h
  | wake t =>
    simp only [exec, wake] at h
    split at h
    . next syncMsg rest hframes =>
      split at h
      . next hsem =>
        rw [Option.some.injEq] at h
        rw [← h]
        apply Steps.wake t syncMsg rest hframes hsem
      . simp at h
    . simp at h
  | peek t env args pMsg => exact peek_steps h
  | dispatch t wndProc =>
    simp only [exec, dispatch] at h
    split at h
    . next msg rest hframes =>
      split at h
      . next hcancel =>
        rw [Option.some.injEq] at h
        rw [← h]
        apply Steps.cancels t wndProc msg rest hframes
        apply dispatchMessage_cancel hcancel
      . rw [Option.some.injEq] at h
        rw [← h]
        apply Steps.ignores t wndProc msg rest hframes
      rename_i hcall
      rw [Option.some.injEq] at h
      rw [← h]
      apply Steps.calls t wndProc msg rest hframes
      apply dispatchMessage_call hcall
    . simp at h
  | procReturns t iRet =>
    simp only [exec, procReturns] at h
    split at h
    . next msg rest hframes =>
      rw [Option.some.injEq] at h
      rw [← h]
      apply Steps.procReturns t iRet msg rest hframes
    . simp at h
  | sendNotify q msg =>
    rw [exec, Option.some.injEq] at h
    rw [← h]
    exact Steps.queueSection _ q _ (QueueSection.sendNotify q msg)
  | post q msg =>
    rw [exec, Option.some.injEq] at h
    rw [← h]
    exact Steps.queueSection _ q _ (QueueSection.post q msg)
  | queue q msg =>
    rw [exec, Option.some.injEq] at h
    rw [← h]
    exact Steps.queueSection _ q _ (QueueSection.queue q msg)
  | peekPost q iMsgFilterMin iMsgFilterMax uRemoveMsg =>
    rw [exec, Option.some.injEq] at h
    rw [← h]
    exact Steps.queueSection _ q _
      (QueueSection.peekPost q iMsgFilterMin iMsgFilterMax uRemoveMsg)
  | throwAway q mainWindowPtrOfControl hWnd =>
    simp only [exec, throwAway] at h
    split at h
    . next hc =>
      rw [Option.some.injEq] at h
      rw [← h]
      apply Steps.throwAway q mainWindowPtrOfControl hWnd hc.2
    . simp at h
  | timers timerstr timerMask =>
    rw [exec, Option.some.injEq] at h
    rw [← h]
    apply Steps.timers

end Cases

end MiniGui.Threads
