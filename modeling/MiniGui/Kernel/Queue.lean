import MiniGui.Library.Bits
import MiniGui.Library.Ring

namespace MiniGui

abbrev Hwnd := Nat

def HWND_DESKTOP : Hwnd := 0
def HWND_INVALID : Hwnd := 0xFFFFFFFF

def MSG_FIRSTMOUSEMSG : Int := 0x0001
def MSG_MOUSEMOVE : Int := 0x0004
def MSG_NCMOUSEMOVE : Int := 0x000B
def MSG_LASTMOUSEMSG : Int := 0x000F
def MSG_PAINT : Int := 0x00B1
def MSG_DT_MOUSEMOVE : Int := 0x00E4
def MSG_QUIT : Int := 0x0140
def MSG_IDLE : Int := 0x0142
def MSG_TIMEOUT : Int := 0x0143
def MSG_TIMER : Int := 0x0144
def MSG_CARETBLINK : Int := 0x0145

def PM_NOREMOVE : Nat := 0x0000
def PM_REMOVE : Nat := 0x0001

structure Msg where
  hwnd : Hwnd
  message : Int
  wParam : BitVec 32
  lParam : BitVec 32
  time : Nat
  pAdd : Option Nat
deriving DecidableEq, Repr

namespace Msg

def zero : Msg :=
  { hwnd := 0, message := 0, wParam := 0, lParam := 0, time := 0, pAdd := none }

end Msg

def QS_PAINT : Nat := 25
def QS_NOTIFYMSG : Nat := 28
def QS_SYNCMSG : Nat := 29
def QS_DESKTIMER : Nat := 29
def QS_POSTMSG : Nat := 30
def QS_QUIT : Nat := 31

inductive Build where
  | threads
  | lite
deriving DecidableEq, Repr

/--
The notification messages are listed from `pFirstNotifyMsg` on; the nodes of the sync messages belong to
their senders, and the queue has the addresses of the first and of the last one.
-/
structure MsgQueue where
  dwState : BitVec 32
  notifyMsgs : List Msg
  pFirstSyncMsg : Option Nat
  pLastSyncMsg : Option Nat
  msg : Nat → Msg
  len : Nat
  readpos : Nat
  writepos : Nat
  firstTimerSlot : Nat
  timerMask : BitVec 32
  loopDepth : Int

def DEF_MSGQUEUE_LEN : Nat := 16

def initMsgQueue (iBufferLen : Nat) : MsgQueue :=
  {
    dwState := 0
    notifyMsgs := []
    pFirstSyncMsg := none
    pLastSyncMsg := none
    msg := fun _ => Msg.zero
    len := if iBufferLen = 0 then DEF_MSGQUEUE_LEN else iBufferLen
    readpos := 0
    writepos := 0
    firstTimerSlot := 0
    timerMask := 0
    loopDepth := 0
  }

namespace MsgQueue

def has (q : MsgQueue) (flag : Nat) : Bool :=
  Bits.has q.dwState flag

def setFlag (q : MsgQueue) (flag : Nat) : MsgQueue :=
  { q with dwState := Bits.set q.dwState flag }

def clearFlag (q : MsgQueue) (flag : Nat) : MsgQueue :=
  { q with dwState := Bits.clear q.dwState flag }

@[simp]
theorem has_setFlag (q : MsgQueue) (f g : Nat)
    : (q.setFlag f).has g = (q.has g || (decide (g < 32) && decide (g = f))) := by
  simp [has, setFlag]

@[simp]
theorem has_clearFlag (q : MsgQueue) (f g : Nat)
    : (q.clearFlag f).has g = (q.has g && decide (g ≠ f)) := by
  simp [has, clearFlag]

end MsgQueue

def isMouseMove (message : Int) : Bool :=
  message = MSG_MOUSEMOVE || message = MSG_NCMOUSEMOVE || message = MSG_DT_MOUSEMOVE

def isTimeoutLike (message : Int) : Bool :=
  message = MSG_TIMEOUT || message = MSG_IDLE || message = MSG_CARETBLINK

def sameMouseMove (a msg : Msg) : Bool :=
  a.message = msg.message && a.wParam = msg.wParam && a.hwnd = msg.hwnd

def sameTimeout (a msg : Msg) : Bool :=
  a.message = msg.message && a.hwnd = msg.hwnd

def mouseMoveLoop (msgQue : MsgQueue) (msg : Msg) (fuel readpos : Nat) (lastMsg : Option Nat)
    : Option Nat :=
  match fuel with
  | 0 => lastMsg
  | fuel + 1 =>
    if readpos = msgQue.writepos then
      lastMsg
    else
      mouseMoveLoop msgQue msg fuel ((readpos + 1) % msgQue.len)
        (if sameMouseMove (msgQue.msg readpos) msg then some readpos else lastMsg)

def timeoutLoop (msgQue : MsgQueue) (msg : Msg) (fuel readpos : Nat) : Option Nat :=
  match fuel with
  | 0 => none
  | fuel + 1 =>
    if readpos = msgQue.writepos then
      none
    else if sameTimeout (msgQue.msg readpos) msg then
      some readpos
    else
      timeoutLoop msgQue msg fuel ((readpos + 1) % msgQue.len)

def duplicated (msgQue : MsgQueue) (msg : Msg) : Option Nat :=
  if isMouseMove msg.message then
    mouseMoveLoop msgQue msg msgQue.len msgQue.readpos none
  else if isTimeoutLike msg.message then
    timeoutLoop msgQue msg msgQue.len msgQue.readpos
  else
    none

def overwrite (a msg : Msg) : Msg :=
  if isMouseMove msg.message then
    { a with lParam := msg.lParam, time := msg.time }
  else
    { a with wParam := msg.wParam, lParam := msg.lParam, time := msg.time }

def queueMessage (msgQue : MsgQueue) (msg : Msg) : Bool × MsgQueue :=
  match duplicated msgQue msg with
  | some pos =>
    let msgs := Function.update msgQue.msg pos (overwrite (msgQue.msg pos) msg)
    (true, { msgQue with msg := msgs }.setFlag QS_POSTMSG)
  | none =>
    if (msgQue.writepos + 1) % msgQue.len = msgQue.readpos then
      (false, msgQue)
    else
      -- Write the data and advance write pointer.
      let msgs := Function.update msgQue.msg msgQue.writepos msg
      let writepos := msgQue.writepos + 1
      let writepos := if writepos ≥ msgQue.len then 0 else writepos
      (true, { msgQue with msg := msgs, writepos }.setFlag QS_POSTMSG)

def postMessage (pMsgQueue : MsgQueue) (msg : Msg) : Bool × MsgQueue :=
  if msg.message = MSG_PAINT then
    (true, pMsgQueue.setFlag QS_PAINT)
  else
    queueMessage pMsgQueue msg

def sendNotifyMessage (pMsgQueue : MsgQueue) (msg : Msg) : MsgQueue :=
  { pMsgQueue with notifyMsgs := pMsgQueue.notifyMsgs ++ [msg] }.setFlag QS_NOTIFYMSG

def postQuitMessage (pMsgQueue : MsgQueue) : MsgQueue :=
  { pMsgQueue with loopDepth := pMsgQueue.loopDepth + 1 }.setFlag QS_QUIT

def advanceReadpos (q : MsgQueue) : MsgQueue :=
  { q with readpos := if q.readpos + 1 ≥ q.len then 0 else q.readpos + 1 }

def peekPostMessage (pMsgQueue : MsgQueue) (iMsgFilterMin iMsgFilterMax : Int) (uRemoveMsg : Nat)
    : Bool × Msg × MsgQueue :=
  if pMsgQueue.has QS_POSTMSG then
    if pMsgQueue.readpos ≠ pMsgQueue.writepos then
      let pPostMsg := pMsgQueue.msg pMsgQueue.readpos
      if (iMsgFilterMin = 0 ∧ iMsgFilterMax = 0)
          ∨ (pPostMsg.message ≤ iMsgFilterMax ∧ pPostMsg.message ≥ iMsgFilterMin) then
        let pMsg := { pPostMsg with pAdd := none }
        (true, pMsg,
          if uRemoveMsg = PM_REMOVE then advanceReadpos pMsgQueue else pMsgQueue)
      else
        (false, Msg.zero, pMsgQueue)
    else
      (false, Msg.zero, pMsgQueue)
  else
    (false, Msg.zero, pMsgQueue)

end MiniGui
