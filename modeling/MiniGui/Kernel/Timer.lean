import MiniGui.Kernel.Queue

namespace MiniGui

open Function

def DEF_NR_TIMERS : Nat := 32

structure Timer (κ : Type) where
  addr : Nat
  hWnd : Hwnd
  id : Int
  speed : BitVec 32
  count : BitVec 32
  proc : Option Nat
  tickCount : BitVec 32
  msgQueue : κ
deriving DecidableEq, Repr

abbrev TimerTable (κ : Type) := Nat → Option (Timer κ)

def setMsgQueueTimerFlag (pMsgQueue : MsgQueue) (slot : Nat) : MsgQueue :=
  { pMsgQueue with timerMask := Bits.set pMsgQueue.timerMask slot }

def removeMsgQueueTimerFlag (pMsgQueue : MsgQueue) (slot : Nat) : MsgQueue :=
  { pMsgQueue with timerMask := Bits.clear pMsgQueue.timerMask slot }

variable {κ : Type}

/--
`__mg_get_timer`; the slot `-1` is `none`.
-/
def getTimer (timerstr : TimerTable κ) (slot : Option Nat) : Option (Timer κ) :=
  match slot with
  | some slot => if slot ≥ DEF_NR_TIMERS then none else timerstr slot
  | none => none

def removeTimer (timerstr : TimerTable κ) (timer : Nat) (slot : Nat) : TimerTable κ :=
  if slot ≥ DEF_NR_TIMERS then
    timerstr
  else
    match timerstr slot with
    | some t => if t.addr = timer then update timerstr slot none else timerstr
    | none => timerstr

def isTimer (t : Timer κ) (hWnd : Hwnd) (id : Int) : Bool :=
  t.hWnd = hWnd && t.id = id

/--
The loop of `SetTimerEx` over the slots `i`: `none` when the timer is installed already, and otherwise
the first free slot, if there is one.
-/
def setTimerLoop (timerstr : TimerTable κ) (hWnd : Hwnd) (id : Int) (i : List Nat)
    (slot : Option Nat) : Option (Option Nat) :=
  match i with
  | [] => some slot
  | i :: rest =>
    match timerstr i with
    | none => setTimerLoop timerstr hWnd id rest (if slot = none then some i else slot)
    | some t => if isTimer t hWnd id then none else setTimerLoop timerstr hWnd id rest slot

def setTimerEx (timerstr : TimerTable κ) (pMsgQueue : κ) (addr : Nat) (hWnd : Hwnd) (id : Int)
    (speed : BitVec 32) (timerProc : Option Nat) : Bool × TimerTable κ :=
  match setTimerLoop timerstr hWnd id (List.range DEF_NR_TIMERS) none with
  | some (some slot) =>
    let timer : Timer κ :=
      {
        addr
        hWnd
        id
        speed
        count := 0
        proc := timerProc
        tickCount := 0
        msgQueue := pMsgQueue
      }
    (true, update timerstr slot (some timer))
  | _ => (false, timerstr)

structure TimerState (κ : Type) where
  timerstr : TimerTable κ
  queues : κ → MsgQueue

variable [DecidableEq κ]

def killTimerLoop (s : TimerState κ) (pMsgQueue : κ) (hWnd : Hwnd) (id : Int) (i : List Nat)
    (killed : Nat) : Nat × TimerState κ :=
  match i with
  | [] => (killed, s)
  | i :: rest =>
    match s.timerstr i with
    | some t =>
      if t.hWnd = hWnd ∧ (id ≤ 0 ∨ t.id = id) then
        let s :=
          {
            timerstr := update s.timerstr i none
            queues :=
              update s.queues pMsgQueue (removeMsgQueueTimerFlag (s.queues pMsgQueue) i)
          }
        if id > 0 then (killed + 1, s) else killTimerLoop s pMsgQueue hWnd id rest (killed + 1)
      else
        killTimerLoop s pMsgQueue hWnd id rest killed
    | none => killTimerLoop s pMsgQueue hWnd id rest killed

def killTimer (s : TimerState κ) (pMsgQueue : κ) (hWnd : Hwnd) (id : Int) : Nat × TimerState κ :=
  killTimerLoop s pMsgQueue hWnd id (List.range DEF_NR_TIMERS) 0

def findTimer (timerstr : TimerTable κ) (hWnd : Hwnd) (id : Int) : Option (Nat × Timer κ) :=
  (List.range DEF_NR_TIMERS).findSome? (fun i =>
    match timerstr i with
    | some t => if isTimer t hWnd id then some (i, t) else none
    | none => none)

/--
A `timerProc` of `none` stands for `(TIMERPROC)0xFFFFFFFF`, which keeps the old callback.
-/
def resetTimerEx (s : TimerState κ) (pMsgQueue : κ) (hWnd : Hwnd) (id : Int) (speed : BitVec 32)
    (timerProc : Option (Option Nat)) : Bool × TimerState κ :=
  match findTimer s.timerstr hWnd id with
  | some (i, t) =>
    let t := { t with speed, count := 0, proc := timerProc.getD t.proc, tickCount := 0 }
    (true,
      {
        -- Should clear old timer flags.
        timerstr := update s.timerstr i (some t)
        queues :=
          update s.queues pMsgQueue (removeMsgQueueTimerFlag (s.queues pMsgQueue) i)
      })
  | none => (false, s)

def dispatchTimer (inter counter : BitVec 32) (s : TimerState κ) (i : Nat) : TimerState κ :=
  match s.timerstr i with
  | some t =>
    let t := { t with count := t.count + inter }
    if t.count ≥ t.speed then
      let t :=
        {
          t with
          tickCount := if t.tickCount = 0 then counter else t.tickCount
          count := t.count - t.speed
        }
      {
        timerstr := update s.timerstr i (some t)
        queues :=
          update s.queues t.msgQueue (setMsgQueueTimerFlag (s.queues t.msgQueue) i)
      }
    else
      { s with timerstr := update s.timerstr i (some t) }
  | none => s

def dispatchTimerMessage (s : TimerState κ) (inter counter : BitVec 32) : TimerState κ :=
  (List.range DEF_NR_TIMERS).foldl (dispatchTimer inter counter) s

end MiniGui
