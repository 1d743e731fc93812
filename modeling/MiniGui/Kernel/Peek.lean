import MiniGui.Kernel.Timer
import MiniGui.Library.EarlyReturn

/-!
`PeekMessageEx` of `kernel/message.c`. What it does between two points where it releases the lock of the
queue is a function on the queue and the timer slots, put together from one part for each source of
messages; a part that returns to the caller ends the section.
-/

namespace MiniGui

inductive Control where
  | mk (hwnd : Hwnd) (invalid : Bool) (children : List Control)

inductive MainWin where
  | mk (win : Control) (hosted : List MainWin)

mutual

def msgCheckInvalidRegion : Control → Option Hwnd
  | .mk hwnd invalid children =>
    if invalid then some hwnd else msgCheckChildren children

def msgCheckChildren : List Control → Option Hwnd
  | [] => none
  | pCtrl :: next =>
    match msgCheckInvalidRegion pCtrl with
    | some hwnd => some hwnd
    | none => msgCheckChildren next

end

mutual

def msgCheckHostedTree : MainWin → Option Hwnd
  | .mk win hosted =>
    match msgCheckInvalidRegion win with
    | some hNeedPaint => some hNeedPaint
    | none => msgCheckHosted hosted

def msgCheckHosted : List MainWin → Option Hwnd
  | [] => none
  | pHosted :: next =>
    match msgCheckHostedTree pHosted with
    | some hNeedPaint => some hNeedPaint
    | none => msgCheckHosted next

end

structure SyncMsg (τ : Type) where
  msg : Msg
  retval : Int
  semHandle : τ
  pNext : Option Nat

/--
What the function reads and does not change. `clientOrigins` lists `(cl, ct)` of a normal window and of
its ancestors, and `invRgn` is the address of the invalid region of a window.
-/
structure PeekEnv (τ : Type) where
  build : Build
  isMainWindow : Hwnd → Bool
  captureWnd : Hwnd
  clientOrigins : Hwnd → Option (List (Int × Int))
  hostingRoot : MainWin
  invRgn : Hwnd → BitVec 32
  syncMsg : Nat → SyncMsg τ

structure PeekArgs where
  hWnd : Hwnd
  iMsgFilterMin : Int
  iMsgFilterMax : Int
  uRemoveMsg : Nat
deriving DecidableEq, Repr

structure PeekState (κ : Type) where
  queue : MsgQueue
  timerstr : TimerTable κ

namespace PeekState

variable {κ : Type}

def setQueue (s : PeekState κ) (queue : MsgQueue) : PeekState κ :=
  { s with queue }

end PeekState

inductive PeekExit (κ : Type) where
  | ret (result : Bool) (pMsg : Msg) (s : PeekState κ)
  | callProc (timer : Timer κ) (slot : Nat) (tickCount : BitVec 32) (pMsg : Msg) (s : PeekState κ)
  | noMessage (pMsg : Msg) (s : PeekState κ)

namespace PeekExit

variable {κ : Type}

def state : PeekExit κ → PeekState κ
  | ret _ _ s => s
  | callProc _ _ _ _ s => s
  | noMessage _ s => s

end PeekExit

abbrev PeekPart (κ : Type) := Except (PeekExit κ) (Msg × PeekState κ)

section CheckCaptured

def KS_CAPTURED : Nat := 10

def loSWord (l : BitVec 32) : Int :=
  (l.truncate 16).toInt

def hiSWord (l : BitVec 32) : Int :=
  ((l >>> 16).truncate 16).toInt

def makeLong (low high : Int) : BitVec 32 :=
  BitVec.setWidth 32 (BitVec.ofInt 16 low) ||| (BitVec.setWidth 32 (BitVec.ofInt 16 high) <<< 16)

variable {τ : Type}

def clientToScreen (env : PeekEnv τ) (hWnd : Hwnd) (x y : Int) : Int × Int :=
  match env.clientOrigins hWnd with
  | none => (x, y)
  | some origins => origins.foldl (fun p o => (p.1 + o.1, p.2 + o.2)) (x, y)

def checkCapturedMouseMessage (env : PeekEnv τ) (pMsg : Msg) : Msg :=
  if env.captureWnd = pMsg.hwnd ∧ pMsg.message ≥ MSG_FIRSTMOUSEMSG
      ∧ pMsg.message ≤ MSG_LASTMOUSEMSG ∧ ¬Bits.has pMsg.wParam KS_CAPTURED then
    let p := clientToScreen env pMsg.hwnd (loSWord pMsg.lParam) (hiSWord pMsg.lParam)
    { pMsg with lParam := makeLong p.1 p.2, wParam := Bits.set pMsg.wParam KS_CAPTURED }
  else
    pMsg

end CheckCaptured

section Parts

variable {κ τ : Type}

def isMsgWanted (args : PeekArgs) (message : Int) : Bool :=
  (args.iMsgFilterMin ≤ 0 && args.iMsgFilterMax ≤ 0)
    || (args.iMsgFilterMin > 0 && args.iMsgFilterMax ≥ args.iMsgFilterMin
        && message ≥ args.iMsgFilterMin && message ≤ args.iMsgFilterMax)

def setPAdd (build : Build) (pMsg : Msg) (value : Option Nat) : Msg :=
  match build with
  | .threads => { pMsg with pAdd := value }
  | .lite => pMsg

variable (env : PeekEnv τ) (args : PeekArgs)

def peekQuit (x : Msg × PeekState κ) : PeekPart κ :=
  let (pMsg, s) := x
  let q := s.queue
  if q.has QS_QUIT then
    let pMsg :=
      setPAdd env.build
        { pMsg with hwnd := args.hWnd, message := MSG_QUIT, wParam := 0, lParam := 0 } none
    let q :=
      if args.uRemoveMsg = PM_REMOVE then
        let q := { q with loopDepth := q.loopDepth - 1 }
        if q.loopDepth = 0 then q.clearFlag QS_QUIT else q
      else
        q
    .error (.ret false pMsg (s.setQueue q))
  else
    .ok (pMsg, s)

def peekSync (x : Msg × PeekState κ) : PeekPart κ :=
  let (pMsg, s) := x
  let q := s.queue
  match env.build with
  | .lite => .ok (pMsg, s)
  | .threads =>
    if q.has QS_SYNCMSG then
      match q.pFirstSyncMsg with
      | some first =>
        let pMsg := { (env.syncMsg first).msg with pAdd := some first }
        if isMsgWanted args pMsg.message then
          let q :=
            if args.uRemoveMsg = PM_REMOVE then
              { q with pFirstSyncMsg := (env.syncMsg first).pNext }
            else
              q
          .error (.ret true pMsg (s.setQueue q))
        else
          .ok (pMsg, s)
      | none => .ok (pMsg, s.setQueue (q.clearFlag QS_SYNCMSG))
    else
      .ok (pMsg, s)

def peekNotify (x : Msg × PeekState κ) : PeekPart κ :=
  let (pMsg, s) := x
  let q := s.queue
  if q.has QS_NOTIFYMSG then
    match q.notifyMsgs with
    | phead :: next =>
      let pMsg := setPAdd env.build phead none
      if isMsgWanted args pMsg.message then
        let q := if args.uRemoveMsg = PM_REMOVE then { q with notifyMsgs := next } else q
        .error (.ret true pMsg (s.setQueue q))
      else
        .ok (pMsg, s)
    | [] => .ok (pMsg, s.setQueue (q.clearFlag QS_NOTIFYMSG))
  else
    .ok (pMsg, s)

def peekPosted (x : Msg × PeekState κ) : PeekPart κ :=
  let (pMsg, s) := x
  let q := s.queue
  if q.has QS_POSTMSG then
    if q.readpos ≠ q.writepos then
      let pMsg := setPAdd env.build (q.msg q.readpos) none
      if isMsgWanted args pMsg.message then
        let pMsg := checkCapturedMouseMessage env pMsg
        let q := if args.uRemoveMsg = PM_REMOVE then advanceReadpos q else q
        .error (.ret true pMsg (s.setQueue q))
      else
        .ok (pMsg, s)
    else
      .ok (pMsg, s.setQueue (q.clearFlag QS_POSTMSG))
  else
    .ok (pMsg, s)

def peekPaint (x : Msg × PeekState κ) : PeekPart κ :=
  let (pMsg, s) := x
  let q := s.queue
  if q.has QS_PAINT && isMsgWanted args MSG_PAINT then
    if env.build = .threads ∧ args.hWnd = HWND_DESKTOP then
      let pMsg :=
        setPAdd env.build
          { pMsg with hwnd := args.hWnd, message := MSG_PAINT, wParam := 0, lParam := 0 } none
      let q := if args.uRemoveMsg = PM_REMOVE then q.clearFlag QS_PAINT else q
      .error (.ret true pMsg (s.setQueue q))
    else
      let pMsg := setPAdd env.build { pMsg with message := MSG_PAINT, wParam := 0, lParam := 0 } none
      match msgCheckHostedTree env.hostingRoot with
      | some hNeedPaint =>
        .error (.ret true { pMsg with hwnd := hNeedPaint, lParam := env.invRgn hNeedPaint } s)
      | none => .ok (pMsg, s.setQueue (q.clearFlag QS_PAINT))
  else
    .ok (pMsg, s)

def peekDeskTimer (x : Msg × PeekState κ) : PeekPart κ :=
  let (pMsg, s) := x
  let q := s.queue
  if env.build = .lite ∧ q.has QS_DESKTIMER then
    let pMsg := { pMsg with hwnd := HWND_DESKTOP, message := MSG_TIMER, wParam := 0, lParam := 0 }
    let q := if args.uRemoveMsg = PM_REMOVE then q.clearFlag QS_DESKTIMER else q
    .error (.ret true pMsg (s.setQueue q))
  else
    .ok (pMsg, s)

/--
The first slot with its bit set, from `slot` on; `none` stands for `-1`.
-/
def timerSlotLoop (timerMask : BitVec 32) (firstTimerSlot fuel slot : Nat) : Option Nat :=
  match fuel with
  | 0 => none
  | fuel + 1 =>
    if Bits.has timerMask slot then
      some slot
    else
      let slot := (slot + 1) % DEF_NR_TIMERS
      if slot = firstTimerSlot then none else timerSlotLoop timerMask firstTimerSlot fuel slot

def expiredSlot (q : MsgQueue) : Option Nat :=
  timerSlotLoop q.timerMask q.firstTimerSlot DEF_NR_TIMERS q.firstTimerSlot

def peekTimer (x : Msg × PeekState κ) : PeekPart κ :=
  let (pMsg, s) := x
  let q := s.queue
  if q.timerMask ≠ 0 ∧ isMsgWanted args MSG_TIMER then
    if env.build = .threads ∧ args.hWnd = HWND_DESKTOP then
      let pMsg :=
        setPAdd env.build
          { pMsg with hwnd := args.hWnd, message := MSG_TIMER, wParam := 0, lParam := 0 } none
      let q := if args.uRemoveMsg = PM_REMOVE then { q with timerMask := 0 } else q
      .error (.ret true pMsg (s.setQueue q))
    else
      -- Get the first expired timer slot.
      let slot := expiredSlot q
      let q := { q with firstTimerSlot := (q.firstTimerSlot + 1) % DEF_NR_TIMERS }
      match slot, getTimer s.timerstr slot with
      | some slot, some timer =>
        let tickCount := timer.tickCount
        let timer := { timer with tickCount := 0 }
        let q := { q with timerMask := Bits.clear q.timerMask slot }
        let s : PeekState κ :=
          { queue := q, timerstr := Function.update s.timerstr slot (some timer) }
        match timer.proc with
        | some _ => .error (.callProc timer slot tickCount pMsg s)
        | none =>
          let pMsg :=
            setPAdd env.build
              {
                pMsg with
                hwnd := timer.hWnd
                message := MSG_TIMER
                wParam := BitVec.ofInt 32 timer.id
                lParam := tickCount
              } none
          .error (.ret true pMsg s)
      | _, _ => .ok (pMsg, s.setQueue q)
  else
    .ok (pMsg, s)

def peekSection (pMsg : Msg) (s : PeekState κ) : PeekExit κ :=
  let x : Except (PeekExit κ) (Msg × PeekState κ) := do
    let x ← peekQuit env args (pMsg, s)
    let x ← peekSync env args x
    let x ← peekNotify env args x
    let x ← peekPosted env args x
    let x ← peekPaint env args x
    let x ← peekDeskTimer env args x
    peekTimer env args x
  match x with
  | .error exit => exit
  | .ok (pMsg, s) => .noMessage pMsg s

open EarlyReturn in
theorem peekSection_rule {env : PeekEnv τ} {args : PeekArgs}
    (inv : Fin 8 → Msg × PeekState κ → Prop) {exit : PeekExit κ → Prop}
    (hquit : Triple (inv 0) (peekQuit env args) (inv 1) exit)
    (hsync : Triple (inv 1) (peekSync env args) (inv 2) exit)
    (hnotify : Triple (inv 2) (peekNotify env args) (inv 3) exit)
    (hposted : Triple (inv 3) (peekPosted env args) (inv 4) exit)
    (hpaint : Triple (inv 4) (peekPaint env args) (inv 5) exit)
    (hdesk : Triple (inv 5) (peekDeskTimer env args) (inv 6) exit)
    (htimer : Triple (inv 6) (peekTimer env args) (inv 7) exit)
    (hnone : ∀ pMsg s, inv 7 (pMsg, s) → exit (.noMessage pMsg s))
    {pMsg : Msg} {s : PeekState κ} (h : inv 0 (pMsg, s)) : exit (peekSection env args pMsg s) := by
  have hall := hquit.bind (hsync.bind (hnotify.bind (hposted.bind (hpaint.bind
    (hdesk.bind htimer)))))
  unfold peekSection
  dsimp only
  split
  . next e heq => exact hall.error h heq
  . next pMsg' s' heq => exact hnone _ _ (hall.ok h heq)

open EarlyReturn in
theorem peekSection_rel {env : PeekEnv τ} {args args' : PeekArgs}
    (rel : Msg × PeekState κ → Msg × PeekState κ → Prop) {exit : PeekExit κ → PeekExit κ → Prop}
    (hquit : Rel rel (peekQuit env args) (peekQuit env args') rel exit)
    (hsync : Rel rel (peekSync env args) (peekSync env args') rel exit)
    (hnotify : Rel rel (peekNotify env args) (peekNotify env args') rel exit)
    (hposted : Rel rel (peekPosted env args) (peekPosted env args') rel exit)
    (hpaint : Rel rel (peekPaint env args) (peekPaint env args') rel exit)
    (hdesk : Rel rel (peekDeskTimer env args) (peekDeskTimer env args') rel exit)
    (htimer : Rel rel (peekTimer env args) (peekTimer env args') rel exit)
    (hnone : ∀ pMsg pMsg' s s', rel (pMsg, s) (pMsg', s') →
      exit (.noMessage pMsg s) (.noMessage pMsg' s'))
    {pMsg pMsg' : Msg} {s s' : PeekState κ} (h : rel (pMsg, s) (pMsg', s'))
    : exit (peekSection env args pMsg s) (peekSection env args' pMsg' s') := by
  have hall := hquit.bind (hsync.bind (hnotify.bind (hposted.bind (hpaint.bind
    (hdesk.bind htimer))))) (pMsg, s) (pMsg', s') h
  unfold peekSection
  dsimp only at hall ⊢
  split
  . next e heq =>
    split
    . next e' heq' =>
      rw [heq, heq'] at hall
      exact hall
    . next heq' =>
      rw [heq, heq'] at hall
      exact hall.elim
  rename_i heq
  split
  . next heq' =>
    rw [heq, heq'] at hall
    exact hall.elim
  . next heq' =>
    rw [heq, heq'] at hall
    exact hnone _ _ _ _ hall

def peekTimerDone (retTimerProc : Bool) (timer : Timer κ) (slot : Nat) (s : PeekState κ) :
    PeekState κ :=
  if retTimerProc then s else { s with timerstr := removeTimer s.timerstr timer.addr slot }

def peekMessageEx (timerProc : Timer κ → BitVec 32 → PeekState κ → Bool × PeekState κ) (pMsg : Msg)
    (s : PeekState κ) : Bool × Msg × PeekState κ :=
  if args.hWnd ≠ HWND_DESKTOP ∧ ¬env.isMainWindow args.hWnd then
    (false, pMsg, s)
  else
    match peekSection env args Msg.zero s with
    | .ret result pMsg s => (result, pMsg, s)
    | .callProc timer slot tickCount pMsg s =>
      let (retTimerProc, s) := timerProc timer tickCount s
      (false, pMsg, peekTimerDone retTimerProc timer slot s)
    | .noMessage pMsg s => (false, pMsg, s)

end Parts

end MiniGui
