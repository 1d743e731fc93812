import MiniGui.Library.Reach

namespace MiniGui

inductive Device (α : Type) where
  | silent
  | failed
  | sample (value : α)

structure MouseSample where
  x : Int
  y : Int
  button : BitVec 32
deriving DecidableEq, Repr

def MouseSample.left (sample : MouseSample) : Bool :=
  sample.button.getLsbD 0

def MouseSample.right (sample : MouseSample) : Bool :=
  sample.button.getLsbD 1

inductive MouseKind where
  | moved
  | leftDown
  | leftUp
  | leftDblClick
  | rightDown
  | rightUp
  | rightDblClick
deriving DecidableEq, Repr

structure MouseEvent where
  event : MouseKind
  x : Int
  y : Int
  status : Option (BitVec 32)
deriving DecidableEq, Repr

inductive KeyKind where
  | down
  | up
  | longPress
  | alwaysPress
deriving DecidableEq, Repr

structure KeyEvent where
  event : KeyKind
  scancode : Nat
  status : BitVec 32
deriving DecidableEq, Repr

inductive LWEvent where
  | mouse (me : MouseEvent)
  | key (ke : KeyEvent)
  | timeout
deriving DecidableEq, Repr

structure EventConf where
  threads : Bool
  nrKeys : Nat
  dblclicktime : UInt32
  longpressTime : UInt32
  alwayspressTime : UInt32
  intervalTime : UInt32

structure Longpress where
  starttime : UInt32
  flag1 : Bool
  flag2 : Bool

structure LockKeys where
  capslock : Bool
  numlock : Bool
  slock : Bool
  capsOff : Bool
  numOff : Bool
  slockOff : Bool

structure ShiftKeys where
  control1 : Bool
  control2 : Bool
  alt1 : Bool
  alt2 : Bool
  shift1 : Bool
  shift2 : Bool

structure EventState where
  oldx : Int
  oldy : Int
  oldbutton : BitVec 32
  time1 : UInt32
  time2 : UInt32
  keTime : UInt32
  oldkeystate : Nat → Bool
  olddownkey : Nat
  status : BitVec 32
  locks : LockKeys
  shifts : ShiftKeys
  longpress : Longpress
  oldLwe : Option LWEvent

def EventState.reset (x y : Int) : EventState where
  oldx := x
  oldy := y
  oldbutton := 0
  time1 := 0
  time2 := 0
  keTime := 0
  oldkeystate := fun _ => false
  olddownkey := 0
  status := 0
  locks := ⟨false, false, false, true, true, true⟩
  shifts := ⟨false, false, false, false, false, false⟩
  longpress := ⟨0, false, true⟩
  oldLwe := none

structure LWCall where
  now : UInt32
  mouse : Device MouseSample
  keyboard : Device (Nat → Bool)
  expired : Bool

section Mouse

variable (conf : EventConf) (s : EventState) (now : UInt32)

def press (time : UInt32) : Bool × UInt32 :=
  if time ≠ 0 then
    (decide (now - time ≤ conf.dblclicktime), 0)
  else
    (false, now)

def EventState.mouseret (sample : MouseSample) (event : MouseKind) : Option MouseEvent × EventState :=
  let cleared := s.status &&& ~~~(0xF000#32)
  let left := if sample.left then cleared ||| 0x1000#32 else cleared
  let status := if sample.right then left ||| 0x2000#32 else left
  let me : MouseEvent := ⟨event, sample.x, sample.y, some status⟩
  (some me, { s with status := status, oldbutton := sample.button, oldLwe := some (.mouse me) })

def EventState.buttons (sample : MouseSample) : Option MouseEvent × EventState :=
  if !s.oldbutton.getLsbD 0 && sample.left then
    let (dblclick, time1) := press conf now s.time1
    { s with time1 := time1 }.mouseret sample (if dblclick then .leftDblClick else .leftDown)
  else if s.oldbutton.getLsbD 0 && !sample.left then
    s.mouseret sample .leftUp
  else if !s.oldbutton.getLsbD 1 && sample.right then
    let (dblclick, time2) := press conf now s.time2
    { s with time2 := time2 }.mouseret sample (if dblclick then .rightDblClick else .rightDown)
  else if s.oldbutton.getLsbD 1 && !sample.right then
    s.mouseret sample .rightUp
  else
    (none, s)

def EventState.mouseTurn (sample : MouseSample) : Option MouseEvent × EventState :=
  if s.oldx ≠ sample.x ∨ s.oldy ≠ sample.y then
    let moved := { s with oldx := sample.x, oldy := sample.y, time1 := 0, time2 := 0 }
    if s.oldbutton = sample.button then
      (some ⟨.moved, sample.x, sample.y, none⟩, moved)
    else
      moved.buttons conf now sample
  else
    s.buttons conf now sample

end Mouse

section Keyboard

variable (conf : EventConf) (s : EventState) (now : UInt32)

def treatLongpress (interval : UInt32) (l : Longpress) : Option KeyKind × Longpress :=
  let maxctime := if conf.longpressTime < conf.alwayspressTime then conf.longpressTime else conf.alwayspressTime
  let always :=
    if l.flag2 then
      (some .alwaysPress, { l with flag2 := false, starttime := now })
    else if now - l.starttime < conf.intervalTime then
      (none, l)
    else
      (some .alwaysPress, { l with starttime := now })
  let long := if l.flag1 then (none, l) else (some .longPress, { l with flag1 := true })
  if conf.longpressTime = 0 ∨ interval < maxctime then
    (some .down, { l with flag1 := false, flag2 := true })
  else if maxctime < conf.alwayspressTime then
    if interval ≤ conf.alwayspressTime then long else always
  else
    if interval ≤ conf.longpressTime then always else long

def EventState.firstChanged (keystate : Nat → Bool) : Option Nat :=
  (List.range' 1 (conf.nrKeys - 1)).find? fun i => s.oldkeystate i != keystate i

def LockKeys.leds (locks : LockKeys) : BitVec 32 :=
  (if locks.slock then 1#32 else 0#32) ||| (if locks.numlock then 2#32 else 0#32)
    ||| (if locks.capslock then 4#32 else 0#32)

def LockKeys.press (locks : LockKeys) (status : BitVec 32) (scancode : Nat) (make : Bool) : LockKeys × BitVec 32 :=
  if scancode = 58 then
    if make && locks.capsOff then
      let locks := { locks with capslock := !locks.capslock, capsOff := !make }
      (locks, locks.leds <<< 16)
    else
      ({ locks with capsOff := !make }, status)
  else if scancode = 69 then
    if make && locks.numOff then
      let locks := { locks with numlock := !locks.numlock, numOff := !make }
      (locks, locks.leds <<< 16)
    else
      ({ locks with numOff := !make }, status)
  else if scancode = 70 then
    if make && locks.slockOff then
      let locks := { locks with slock := !locks.slock, slockOff := !make }
      (locks, locks.leds <<< 16)
    else
      ({ locks with slockOff := !make }, status)
  else
    (locks, status)

def ShiftKeys.press (shifts : ShiftKeys) (scancode : Nat) (make : Bool) : ShiftKeys :=
  if scancode = 29 then
    { shifts with control1 := make }
  else if scancode = 97 then
    { shifts with control2 := make }
  else if scancode = 42 then
    { shifts with shift1 := make }
  else if scancode = 54 then
    { shifts with shift2 := make }
  else if scancode = 56 then
    { shifts with alt1 := make }
  else if scancode = 100 then
    { shifts with alt2 := make }
  else
    shifts

def statusBit (b : Bool) (n : Nat) : BitVec 32 :=
  if b then 1#32 <<< n else 0#32

def shiftStatus (status : BitVec 32) (locks : LockKeys) (shifts : ShiftKeys) (oldbutton : BitVec 32) : BitVec 32 :=
  let keys := (status &&& ~~~(0xFFF#32)) ||| (statusBit locks.capslock 8 ||| statusBit locks.numlock 7
    ||| statusBit locks.slock 6 ||| statusBit shifts.control1 5 ||| statusBit shifts.control2 4
    ||| statusBit shifts.alt1 3 ||| statusBit shifts.alt2 2 ||| statusBit shifts.shift1 1 ||| statusBit shifts.shift2 0)
  if oldbutton.getLsbD 0 then
    keys ||| 0x1000#32
  else if oldbutton.getLsbD 1 then
    keys ||| 0x2000#32
  else
    keys

def EventState.keyret (keystate : Nat → Bool) (ke : KeyEvent) : Option KeyEvent × EventState :=
  let oldkeystate := fun i => if i < conf.nrKeys then keystate i else s.oldkeystate i
  (some ke, { s with oldkeystate := oldkeystate, oldLwe := some (.key ke) })

def EventState.keyTurn (keystate : Nat → Bool) : Option KeyEvent × EventState :=
  match s.firstChanged conf keystate with
  | some i =>
    let make := keystate i
    let (locks, lockStatus) := s.locks.press s.status i make
    let shifts := s.shifts.press i make
    let status := shiftStatus lockStatus locks shifts s.oldbutton
    let t := { s with locks := locks, shifts := shifts, status := status }
    if make then
      { t with keTime := now, olddownkey := i }.keyret conf keystate ⟨.down, i, status⟩
    else
      t.keyret conf keystate ⟨.up, i, status⟩
  | none =>
    if s.olddownkey = 0 then
      (none, s)
    else
      let (event, longpress) := treatLongpress conf now (now - s.keTime) s.longpress
      let t := { s with longpress := longpress }
      match event with
      | none => (none, t)
      | some event => t.keyret conf keystate ⟨event, s.olddownkey, s.status⟩

end Keyboard

section Event

variable (conf : EventConf) (s : EventState)

def EventState.timeoutTurn (call : LWCall) : Option LWEvent × EventState :=
  if call.expired then
    match s.oldLwe with
    | some (.key ke) =>
      if ke.event = .down then (some (.key { ke with status := ke.status ||| 0x800#32 }), s) else (some .timeout, s)
    | _ => (some .timeout, s)
  else if conf.threads then
    (none, { s with oldLwe := none })
  else
    (none, s)

def EventState.keyboardTurn (call : LWCall) : Option LWEvent × EventState :=
  match call.keyboard with
  | .silent => (none, { s with oldLwe := none })
  | .failed => (none, s)
  | .sample keystate =>
    let (ke, t) := s.keyTurn conf call.now keystate
    (ke.map .key, t)

def EventState.getLWEvent (call : LWCall) : Option LWEvent × EventState :=
  match call.mouse, call.keyboard with
  | .silent, .silent => s.timeoutTurn conf call
  | .silent, .failed => if conf.threads then s.timeoutTurn conf call else (none, s)
  | .failed, .silent => if conf.threads then s.timeoutTurn conf call else (none, s)
  | .failed, .failed => if conf.threads then s.timeoutTurn conf call else (none, s)
  | .failed, .sample _ => if conf.threads then s.keyboardTurn conf call else (none, s)
  | .silent, .sample _ => s.keyboardTurn conf call
  | .sample sample, keyboard =>
    match s.mouseTurn conf call.now sample with
    | (some me, t) => (some (.mouse me), t)
    | (none, t) =>
      match keyboard with
      | .failed => (none, if conf.threads then { t with oldLwe := none } else t)
      | _ => t.keyboardTurn conf call

end Event

end MiniGui
