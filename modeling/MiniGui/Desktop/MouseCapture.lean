import MiniGui.Kernel.Peek

namespace MiniGui.MouseCapture

open List

inductive MouseButton where
  | left
  | right
deriving DecidableEq, Repr

inductive MouseMsg where
  | move
  | down (button : MouseButton)
  | up (button : MouseButton)
  | dblclk (button : MouseButton)
deriving DecidableEq, Repr

namespace MouseMsg

def number : MouseMsg → Int
  | down .left => 0x0001
  | up .left => 0x0002
  | dblclk .left => 0x0003
  | move => MSG_MOUSEMOVE
  | down .right => 0x0005
  | up .right => 0x0006
  | dblclk .right => 0x0007

end MouseMsg

def MSG_DT_MOUSEOFF : Int := 0x00E0
def MSG_MOUSEMOVEIN : Int := 0x0050
def MSG_MOUSEACTIVE : Int := 0x0032
def HT_OUT : BitVec 32 := 0x01

def DOWN_BUTTON_NONE : BitVec 32 := 0x0000
def DOWN_BUTTON_LEFT : BitVec 32 := 0x0001
def DOWN_BUTTON_RIGHT : BitVec 32 := 0x0002
def DOWN_BUTTON_ANY : BitVec 32 := 0x000F

def MouseButton.mask : MouseButton → BitVec 32
  | .left => DOWN_BUTTON_LEFT
  | .right => DOWN_BUTTON_RIGHT

open MouseButton (left mask right)

inductive UnderPoint where
  | mainWin (hwnd : Hwnd)
  | control (hwnd pMainWin : Hwnd)
deriving DecidableEq, Repr

structure MouseEvent where
  message : MouseMsg
  flags : BitVec 32
  x : Int
  y : Int
  pCtrlPtrIn : Option UnderPoint
  hookStop : Bool
  captureWnd : Hwnd
  ptmi : Bool
  disabled : Hwnd → Bool
  topMost : Hwnd → Bool
  changActiveWindow : Option Hwnd → Option Hwnd
  defCursor : Bool

namespace MouseEvent

def pUnderPointer (e : MouseEvent) : Option Hwnd :=
  match e.pCtrlPtrIn with
  | some (.mainWin hwnd) => some hwnd
  | some (.control _ pMainWin) => some pMainWin
  | none => none

def isControl (e : MouseEvent) : Bool :=
  match e.pCtrlPtrIn with
  | some (.control _ _) => true
  | _ => false

end MouseEvent

inductive DeskAct where
  | post (hwnd : Hwnd) (message : Int) (wParam lParam : BitVec 32)
  | notify (hwnd : Hwnd) (message : Int)
  | forceCloseMenu
  | ping
  | moveToTopMost (hwnd : Hwnd)
  | changActiveWindow (hwnd : Option Hwnd)
  | setCursor
deriving DecidableEq, Repr

structure MouseState where
  oldUnderP : Option Hwnd
  buttonDownMainWindow : Option Hwnd
  downButtons : BitVec 32
deriving DecidableEq, Repr

def handleOf (hwnd : Option Hwnd) : BitVec 32 :=
  BitVec.ofNat 32 (hwnd.getD 0)

namespace MouseState

def init : MouseState :=
  { oldUnderP := none, buttonDownMainWindow := none, downButtons := DOWN_BUTTON_NONE }

section Handler

variable (s : MouseState) (e : MouseEvent)

def toWindow (hwnd : Hwnd) : DeskAct :=
  .post hwnd (e.message.number + MSG_DT_MOUSEOFF) e.flags (makeLong e.x e.y)

def onMove : List DeskAct × MouseState :=
  match s.buttonDownMainWindow with
  | some wnd => ([toWindow e wnd], s)
  | none =>
    let under := e.pUnderPointer
    let entered :=
      if s.oldUnderP ≠ under then
        (match s.oldUnderP with
          | some old =>
            [.post old MSG_MOUSEMOVEIN 0 (handleOf under), .post old MSG_NCMOUSEMOVE HT_OUT (makeLong e.x e.y)]
          | none => [])
          ++
        match under with
          | some wnd => [.post wnd MSG_MOUSEMOVEIN 1 (handleOf s.oldUnderP)]
          | none => [.setCursor]
      else
        []
    let cursor : List DeskAct := if e.defCursor then [.setCursor] else []
    let moved :=
      match under with
      | some wnd => if e.disabled wnd then cursor else [toWindow e wnd]
      | none => cursor ++ [toWindow e HWND_DESKTOP]
    (entered ++ moved, { s with oldUnderP := under })

def onButtonDown (button : MouseButton) : List DeskAct × MouseState :=
  match s.buttonDownMainWindow with
  | some wnd => ([toWindow e wnd], { s with downButtons := s.downButtons ||| button.mask })
  | none =>
    match e.pUnderPointer with
    | some wnd =>
      let closed : List DeskAct := if e.ptmi then [.forceCloseMenu] else []
      if e.disabled wnd then
        (closed ++ [.ping], s)
      else
        let raised : List DeskAct :=
          if !e.isControl then
            (if e.topMost wnd then [] else [.moveToTopMost wnd])
              ++ [.changActiveWindow (some wnd)]
              ++ if e.changActiveWindow (some wnd) ≠ some wnd then [.notify wnd MSG_MOUSEACTIVE] else []
          else
            []
        (closed ++ raised ++ [toWindow e wnd], { s with buttonDownMainWindow := some wnd, downButtons := button.mask })
    | none =>
      ([.changActiveWindow none, toWindow e HWND_DESKTOP],
        { s with buttonDownMainWindow := none, downButtons := DOWN_BUTTON_NONE })

def onButtonUp (button : MouseButton) : List DeskAct × MouseState :=
  if s.downButtons = DOWN_BUTTON_LEFT ∧ button = .right then
    ([], s)
  else if s.downButtons = DOWN_BUTTON_RIGHT ∧ button = .left then
    ([], s)
  else
    match s.buttonDownMainWindow with
    | some wnd =>
      let downButtons := s.downButtons &&& ~~~button.mask
      ([toWindow e wnd],
        if downButtons &&& DOWN_BUTTON_ANY = 0 then
          { s with buttonDownMainWindow := none, downButtons := DOWN_BUTTON_NONE }
        else
          { s with downButtons })
    | none => (if e.pUnderPointer = none then [toWindow e HWND_DESKTOP] else [], s)

def onDblclk (button : MouseButton) : List DeskAct × MouseState :=
  match s.buttonDownMainWindow with
  | some wnd => ([toWindow e wnd], { s with downButtons := s.downButtons ||| button.mask })
  | none =>
    match e.pUnderPointer with
    | some wnd => ([toWindow e wnd], { s with buttonDownMainWindow := some wnd, downButtons := button.mask })
    | none => ([toWindow e HWND_DESKTOP], { s with buttonDownMainWindow := none, downButtons := DOWN_BUTTON_NONE })

def mouseMessageHandler : List DeskAct × MouseState :=
  if e.captureWnd ≠ 0 then
    ([.post e.captureWnd e.message.number (Bits.set e.flags KS_CAPTURED) (makeLong e.x e.y)], s)
  else if e.hookStop then
    ([], s)
  else
    match e.message with
    | .move => onMove s e
    | .down button => onButtonDown s e button
    | .up button => onButtonUp s e button
    | .dblclk button => onDblclk s e button

end Handler

def after (s : MouseState) (es : List MouseEvent) : MouseState :=
  es.foldl (fun s e => (mouseMessageHandler s e).2) s

end MouseState

structure Capture where
  wnd : Hwnd
  held : Finset MouseButton
  nonempty : held.Nonempty
deriving DecidableEq

namespace Capture

def press (c : Capture) (button : MouseButton) : Capture :=
  { c with held := insert button c.held, nonempty := Finset.insert_nonempty button c.held }

def release (c : Capture) (button : MouseButton) : Option Capture :=
  if h : (c.held.erase button).Nonempty then
    some { c with held := c.held.erase button, nonempty := h }
  else
    none

end Capture

def pressedWindow (e : MouseEvent) : Option Hwnd :=
  match e.message, e.pUnderPointer with
  | .down _, some wnd => if e.disabled wnd then none else some wnd
  | .dblclk _, some wnd => some wnd
  | _, _ => none

def nextCapture (c : Option Capture) (e : MouseEvent) : Option Capture :=
  if e.hookStop then
    c
  else
    match c, e.message with
    | some c, .down button => some (c.press button)
    | some c, .dblclk button => some (c.press button)
    | some c, .up button => c.release button
    | some c, .move => some c
    | none, .down button => (pressedWindow e).map fun wnd => ⟨wnd, {button}, Finset.singleton_nonempty button⟩
    | none, .dblclk button => (pressedWindow e).map fun wnd => ⟨wnd, {button}, Finset.singleton_nonempty button⟩
    | none, _ => none

def captureAfter (c : Option Capture) (es : List MouseEvent) : Option Capture :=
  es.foldl nextCapture c

def isForeignRelease (c : Capture) (e : MouseEvent) : Bool :=
  match e.message with
  | .up button => button ∉ c.held
  | _ => false

def maskOf (held : Finset MouseButton) : BitVec 32 :=
  (if MouseButton.left ∈ held then DOWN_BUTTON_LEFT else 0) ||| if MouseButton.right ∈ held then DOWN_BUTTON_RIGHT else 0

structure Encodes (s : MouseState) (c : Option Capture) : Prop where
  window : s.buttonDownMainWindow = c.map Capture.wnd
  buttons : s.downButtons = maskOf (c.elim ∅ Capture.held)

theorem maskOf_insert (held : Finset MouseButton) (button : MouseButton)
    : maskOf (insert button held) = maskOf held ||| button.mask := by
  unfold maskOf
  cases button <;> by_cases hl : left ∈ held <;> by_cases hr : right ∈ held <;>
    simp [hl, hr, mask, DOWN_BUTTON_LEFT, DOWN_BUTTON_RIGHT]

theorem maskOf_erase (held : Finset MouseButton) (button : MouseButton)
    : maskOf (held.erase button) = maskOf held &&& ~~~button.mask := by
  unfold maskOf
  cases button <;> by_cases hl : left ∈ held <;> by_cases hr : right ∈ held <;>
    simp [hl, hr, mask, DOWN_BUTTON_LEFT, DOWN_BUTTON_RIGHT]

theorem maskOf_empty : maskOf ∅ = DOWN_BUTTON_NONE := by
  decide

theorem maskOf_singleton (button : MouseButton) : maskOf {button} = button.mask := by
  cases button <;> decide

theorem maskOf_any_eq_zero (held : Finset MouseButton) : maskOf held &&& DOWN_BUTTON_ANY = 0 ↔ held = ∅ := by
  have hempty : held = ∅ ↔ left ∉ held ∧ right ∉ held := by
    constructor
    . intro h
      simp [h]
    intro h
    apply Finset.eq_empty_of_forall_notMem
    intro button
    cases button
    . exact h.1
    . exact h.2
  rw [hempty]
  unfold maskOf
  by_cases hl : left ∈ held <;> by_cases hr : right ∈ held <;>
    simp [hl, hr, DOWN_BUTTON_LEFT, DOWN_BUTTON_RIGHT, DOWN_BUTTON_ANY]

theorem maskOf_eq_zero (held : Finset MouseButton) : maskOf held = 0 ↔ held = ∅ := by
  rw [← maskOf_any_eq_zero]
  unfold maskOf
  by_cases hl : left ∈ held <;> by_cases hr : right ∈ held <;>
    simp [hl, hr, DOWN_BUTTON_LEFT, DOWN_BUTTON_RIGHT, DOWN_BUTTON_ANY]

theorem foreign_iff (c : Capture) (button : MouseButton)
    : (maskOf c.held = DOWN_BUTTON_LEFT ∧ button = .right) ∨ (maskOf c.held = DOWN_BUTTON_RIGHT ∧ button = .left)
        ↔ button ∉ c.held := by
  have hsome : left ∈ c.held ∨ right ∈ c.held := by
    obtain ⟨b, hb⟩ := c.nonempty
    cases b
    . exact .inl hb
    . exact .inr hb
  unfold maskOf
  by_cases hl : left ∈ c.held <;> by_cases hr : right ∈ c.held <;>
    simp [hl, hr] at hsome <;> cases button <;> simp [hl, hr, DOWN_BUTTON_LEFT, DOWN_BUTTON_RIGHT]

section Step

variable {s : MouseState} {e : MouseEvent}

open MouseState

section

variable {c : Capture} (h : Encodes s (some c))
include h

theorem captured_up (button : MouseButton) : Encodes (onButtonUp s e button).2 (c.release button)
        ∧ (onButtonUp s e button).1 = if button ∉ c.held then [] else [toWindow e c.wnd] := by
  have hwindow : s.buttonDownMainWindow = some c.wnd := h.window
  have hbuttons : s.downButtons = maskOf c.held := h.buttons
  have hforeign := foreign_iff c button
  rw [← hbuttons] at hforeign
  unfold onButtonUp
  by_cases hnot : button ∉ c.held
  . have hsame : c.release button = some c := by
      unfold Capture.release
      simp only [Finset.erase_eq_of_notMem hnot]
      exact dif_pos c.nonempty
    rw [if_pos hnot, hsame]
    rcases hforeign.mpr hnot with hleft | hright
    . rw [if_pos hleft]
      exact ⟨h, rfl⟩
    . rw [if_pos hright, ite_self]
      exact ⟨h, rfl⟩
  rw [← hforeign, not_or] at hnot
  have hheld : ¬button ∉ c.held := by
    rw [← hforeign, not_or]
    exact hnot
  rw [if_neg hnot.1, if_neg hnot.2, if_neg hheld, hwindow]
  dsimp only
  rw [hbuttons, ← maskOf_erase]
  refine ⟨?_, rfl⟩
  unfold Capture.release
  by_cases hlast : c.held.erase button = ∅
  . rw [if_pos ((maskOf_any_eq_zero _).mpr hlast), dif_neg (by rw [hlast]; exact Finset.not_nonempty_empty)]
    exact ⟨rfl, rfl⟩
  . rw [if_neg (fun hzero => hlast ((maskOf_any_eq_zero _).mp hzero)), dif_pos (Finset.nonempty_iff_ne_empty.mpr hlast)]
    exact ⟨rfl, rfl⟩

theorem captured_press (button : MouseButton)
    : Encodes { s with downButtons := s.downButtons ||| button.mask } (some (c.press button)) := by
  refine ⟨h.window, ?_⟩
  have hbuttons : s.downButtons = maskOf c.held := h.buttons
  rw [hbuttons, ← maskOf_insert]
  rfl

theorem captured_step (hexplicit : e.captureWnd = 0)
    : Encodes (mouseMessageHandler s e).2 (nextCapture (some c) e)
        ∧ (mouseMessageHandler s e).1 = if e.hookStop ∨ isForeignRelease c e then [] else [toWindow e c.wnd] := by
  have hwindow : s.buttonDownMainWindow = some c.wnd := h.window
  unfold mouseMessageHandler nextCapture isForeignRelease
  rw [if_neg (not_not.mpr hexplicit)]
  by_cases hstop : e.hookStop = true
  . rw [if_pos hstop, if_pos hstop, if_pos (Or.inl hstop)]
    exact ⟨h, rfl⟩
  rw [if_neg hstop, if_neg hstop]
  cases hmessage : e.message with
  | move =>
    have hmove : onMove s e = ([toWindow e c.wnd], s) := by
      rw [onMove, hwindow]
    rw [hmove]
    exact ⟨h, by simp [hstop]⟩
  | down button =>
    have hdown : onButtonDown s e button = ([toWindow e c.wnd], { s with downButtons := s.downButtons ||| button.mask }) := by
      rw [onButtonDown, hwindow]
    dsimp only
    rw [hdown]
    exact ⟨captured_press h button, by simp [hstop]⟩
  | up button =>
    have hup := captured_up (e := e) h button
    refine ⟨hup.1, hup.2.trans ?_⟩
    simp [hstop]
  | dblclk button =>
    have hdblclk : onDblclk s e button = ([toWindow e c.wnd], { s with downButtons := s.downButtons ||| button.mask }) := by
      rw [onDblclk, hwindow]
    dsimp only
    rw [hdblclk]
    exact ⟨captured_press h button, by simp [hstop]⟩

end

variable {wnd : Hwnd} {c : Option Capture}

theorem encodes_singleton (button : MouseButton) (hwindow : s.buttonDownMainWindow = some wnd)
    (hbuttons : s.downButtons = button.mask)
    : Encodes s (some ⟨wnd, {button}, Finset.singleton_nonempty button⟩) := by
  refine ⟨hwindow, ?_⟩
  rw [hbuttons, ← maskOf_singleton]
  rfl

theorem free_step (h : Encodes s none) (hexplicit : e.captureWnd = 0)
    : Encodes (mouseMessageHandler s e).2 (nextCapture none e) := by
  have hwindow : s.buttonDownMainWindow = none := h.window
  have hbuttons : s.downButtons = 0 := h.buttons
  unfold mouseMessageHandler nextCapture
  rw [if_neg (not_not.mpr hexplicit)]
  by_cases hstop : e.hookStop = true
  . rw [if_pos hstop, if_pos hstop]
    exact h
  rw [if_neg hstop, if_neg hstop]
  cases hmessage : e.message with
  | move =>
    dsimp only
    rw [onMove, hwindow]
    exact ⟨rfl, hbuttons⟩
  | down button =>
    dsimp only
    rw [onButtonDown, hwindow, pressedWindow, hmessage]
    cases hunder : e.pUnderPointer with
    | none => exact ⟨rfl, maskOf_empty.symm⟩
    | some wnd =>
      dsimp only
      split
      . exact h
      . exact encodes_singleton button rfl rfl
  | up button =>
    dsimp only
    rw [onButtonUp, hwindow]
    dsimp only
    split
    . exact h
    . split
      . exact h
      . exact h
  | dblclk button =>
    dsimp only
    rw [onDblclk, hwindow, pressedWindow, hmessage]
    dsimp only
    cases hunder : e.pUnderPointer with
    | none => exact ⟨rfl, maskOf_empty.symm⟩
    | some wnd => exact encodes_singleton button rfl rfl

theorem encodes_next (h : Encodes s c) (hexplicit : e.captureWnd = 0)
    : Encodes (mouseMessageHandler s e).2 (nextCapture c e) := by
  cases c with
  | none => exact free_step h hexplicit
  | some c => exact (captured_step h hexplicit).1

theorem encodes_after (h : Encodes s c) (es : List MouseEvent) (hexplicit : ∀ e ∈ es, e.captureWnd = 0)
    : Encodes (s.after es) (captureAfter c es) := by
  induction es generalizing s c with
  | nil => exact h
  | cons e es ih =>
    exact ih (encodes_next h (hexplicit e mem_cons_self)) fun e he => hexplicit e (mem_cons_of_mem _ he)

theorem encodes_init : Encodes MouseState.init none :=
  ⟨rfl, maskOf_empty.symm⟩

theorem capture_of_delivered {button : MouseButton} (h : Encodes s c)
    (hexplicit : e.captureWnd = 0) (hpress : e.message = .down button ∨ e.message = .dblclk button)
    (hwnd : wnd ≠ HWND_DESKTOP) (hdelivered : toWindow e wnd ∈ (mouseMessageHandler s e).1)
    : ∃ c', nextCapture c e = some c' ∧ c'.wnd = wnd ∧ button ∈ c'.held := by
  have hto : ∀ other, toWindow e wnd = toWindow e other → wnd = other := by
    intro other heq
    rw [toWindow, toWindow, DeskAct.post.injEq] at heq
    exact heq.1
  have hstop : e.hookStop = false := by
    by_contra hstop
    rw [Bool.not_eq_false] at hstop
    rw [mouseMessageHandler, if_neg (not_not.mpr hexplicit), if_pos hstop] at hdelivered
    cases hdelivered
  cases c with
  | some c =>
    rw [(captured_step h hexplicit).2] at hdelivered
    split at hdelivered
    . cases hdelivered
    refine ⟨c.press button, ?_, (hto c.wnd (mem_singleton.mp hdelivered)).symm, Finset.mem_insert_self _ _⟩
    unfold nextCapture
    rw [hstop, if_neg (by decide)]
    rcases hpress with hmessage | hmessage
    . rw [hmessage]
    . rw [hmessage]
  | none =>
    have hwindow : s.buttonDownMainWindow = none := h.window
    rw [mouseMessageHandler, if_neg (not_not.mpr hexplicit), hstop, if_neg (by decide)] at hdelivered
    unfold nextCapture
    rw [hstop, if_neg (by decide)]
    rcases hpress with hmessage | hmessage
    . rw [hmessage] at hdelivered ⊢
      dsimp only at hdelivered ⊢
      rw [onButtonDown, hwindow] at hdelivered
      rw [pressedWindow, hmessage]
      cases hunder : e.pUnderPointer with
      | none =>
        rw [hunder] at hdelivered
        simp only [mem_cons, not_mem_nil, or_false] at hdelivered
        rcases hdelivered with hactive | hdesktop
        . rw [toWindow] at hactive
          cases hactive
        . exact absurd (hto _ hdesktop) hwnd
      | some under =>
        rw [hunder] at hdelivered
        dsimp only at hdelivered ⊢
        split at hdelivered
        . split at hdelivered <;> simp [toWindow] at hdelivered
        rename_i henabled
        rw [if_neg henabled]
        refine ⟨_, rfl, ?_, Finset.mem_singleton_self button⟩
        rw [mem_append, mem_singleton] at hdelivered
        rcases hdelivered with hother | hlast
        . exfalso
          simp only [mem_append] at hother
          rcases hother with hclosed | hraised
          . split at hclosed <;> simp [toWindow] at hclosed
          split at hraised
          . simp only [mem_append, mem_singleton] at hraised
            rcases hraised with (htop | hactive) | hnotify
            . split at htop <;> simp [toWindow] at htop
            . simp [toWindow] at hactive
            . split at hnotify <;> simp [toWindow] at hnotify
          . cases hraised
        . exact (hto under hlast).symm
    rw [hmessage] at hdelivered ⊢
    dsimp only at hdelivered ⊢
    rw [onDblclk, hwindow] at hdelivered
    rw [pressedWindow, hmessage]
    cases hunder : e.pUnderPointer with
    | none =>
      rw [hunder] at hdelivered
      exact absurd (hto _ (mem_singleton.mp hdelivered)) hwnd
    | some under =>
      rw [hunder] at hdelivered
      exact ⟨_, rfl, (hto under (mem_singleton.mp hdelivered)).symm, Finset.mem_singleton_self button⟩

theorem captureAfter_wnd {c : Capture} (es : List MouseEvent) {c' : Capture}
    (hlasts : ∀ before, before <+: es → captureAfter (some c) before ≠ none) (h : captureAfter (some c) es = some c')
    : c'.wnd = c.wnd := by
  induction es generalizing c with
  | nil =>
    rw [captureAfter, foldl_nil, Option.some.injEq] at h
    rw [h]
  | cons e es ih =>
    have hnext := hlasts [e] (by simp)
    rw [captureAfter, foldl_cons, foldl_nil] at hnext
    obtain ⟨d, hd⟩ := Option.ne_none_iff_exists'.mp hnext
    have hwnd : d.wnd = c.wnd := by
      unfold nextCapture at hd
      split at hd
      . rw [Option.some.injEq] at hd
        rw [hd]
      cases hmessage : e.message with
      | move =>
        rw [hmessage, Option.some.injEq] at hd
        rw [hd]
      | down button | dblclk button =>
        rw [hmessage, Option.some.injEq] at hd
        rw [← hd]
        rfl
      | up button =>
        rw [hmessage] at hd
        dsimp only [Capture.release] at hd
        split at hd
        . rw [Option.some.injEq] at hd
          rw [← hd]
        . cases hd
    rw [captureAfter, foldl_cons, hd] at h
    rw [← hwnd]
    apply ih _ h
    intro before hbefore
    have hlonger := hlasts (e :: before) (cons_prefix_cons.mpr ⟨rfl, hbefore⟩)
    rw [captureAfter, foldl_cons, hd] at hlonger
    exact hlonger

end Step

section Routing

open MouseState

structure RoutedTo (s : MouseState) (c : Capture) (wnd : Hwnd) (later : List MouseEvent) : Prop where
  routed : ∀ before e rest, later = before ++ e :: rest → ∃ c', captureAfter (some c) before = some c' ∧ c'.wnd = wnd
    ∧ (mouseMessageHandler (s.after before) e).1 = if e.hookStop ∨ isForeignRelease c' e then [] else [toWindow e wnd]

structure MouseRouted (es : List MouseEvent) : Prop where
  invariant : (init.after es).buttonDownMainWindow ≠ none ↔ (init.after es).downButtons ≠ DOWN_BUTTON_NONE
  pressed : ∀ (e : MouseEvent) (button : MouseButton) (wnd : Hwnd), e.captureWnd = 0 →
    e.message = .down button ∨ e.message = .dblclk button → wnd ≠ HWND_DESKTOP →
    toWindow e wnd ∈ (mouseMessageHandler (init.after es) e).1 →
    ∃ c, captureAfter none (es ++ [e]) = some c ∧ button ∈ c.held ∧ ∀ later : List MouseEvent,
      (∀ e' ∈ later, e'.captureWnd = 0) → (∀ before, before <+: later → before ≠ later → captureAfter (some c) before ≠ none) →
      RoutedTo (init.after (es ++ [e])) c wnd later

/--
Without explicit capture a button that goes down on a window captures the mouse for it until the last button that has
been pressed for it is released.
-/
theorem mouse_capture_routing (es : List MouseEvent) (hexplicit : ∀ e ∈ es, e.captureWnd = 0) : MouseRouted es := by
  have hes := encodes_after encodes_init es hexplicit
  constructor
  . rw [hes.window, hes.buttons]
    cases captureAfter none es with
    | none => simp [maskOf_empty]
    | some c =>
      refine iff_of_true (by simp) ?_
      intro hzero
      exact absurd ((maskOf_eq_zero c.held).mp hzero) (Finset.nonempty_iff_ne_empty.mp c.nonempty)
  intro e button wnd he hpress hwnd hdelivered
  obtain ⟨c, hc, hcWnd, hbutton⟩ := capture_of_delivered hes he hpress hwnd hdelivered
  have hcapture : captureAfter none (es ++ [e]) = some c := by
    rw [captureAfter, foldl_append]
    exact hc
  refine ⟨c, hcapture, hbutton, ?_⟩
  intro later hlater hlasts
  have hstart : Encodes (init.after (es ++ [e])) (some c) := by
    rw [← hcapture]
    apply encodes_after encodes_init
    intro e' he'
    rcases mem_append.mp he' with hmem | hmem
    . exact hexplicit e' hmem
    . rw [mem_singleton.mp hmem]
      exact he
  constructor
  intro before e' rest hsplit
  have hbefore : before <+: later ∧ before ≠ later := by
    rw [hsplit]
    exact ⟨prefix_append _ _, by simp⟩
  obtain ⟨c', hc'⟩ := Option.ne_none_iff_exists'.mp (hlasts before hbefore.1 hbefore.2)
  have hmem : ∀ e'' ∈ before, e''.captureWnd = 0 := fun e'' he'' => hlater e'' (hbefore.1.subset he'')
  have hwndKept : c'.wnd = c.wnd := by
    apply captureAfter_wnd before _ hc'
    intro shorter hshorter
    refine hlasts shorter (hshorter.trans hbefore.1) ?_
    intro heq
    rw [heq] at hshorter
    exact hbefore.2 (hbefore.1.eq_of_length_le hshorter.length_le)
  have hreached := encodes_after hstart before hmem
  rw [hc'] at hreached
  have hstep := captured_step hreached (hlater e' (by rw [hsplit]; simp))
  refine ⟨c', hc', by rw [hwndKept, hcWnd], ?_⟩
  rw [hstep.2, hwndKept, hcWnd]

end Routing

def mouseAt (wnd : Hwnd) (message : MouseMsg) : MouseEvent :=
  {
    message
    flags := 0
    x := 10
    y := 20
    pCtrlPtrIn := if wnd = 0 then none else some (.mainWin wnd)
    hookStop := false
    captureWnd := 0
    ptmi := false
    disabled := fun _ => false
    topMost := fun _ => true
    changActiveWindow := id
    defCursor := false
  }

theorem not_all_routed
    : ¬∀ (es : List MouseEvent) (e e' : MouseEvent) (button : MouseButton) (wnd : Hwnd),
        (∀ m ∈ es ++ [e, e'], m.captureWnd = 0 ∧ m.hookStop = false ∧ m.disabled wnd = false) → e.message = .down button →
        wnd ≠ HWND_DESKTOP → MouseState.toWindow e wnd ∈ (MouseState.mouseMessageHandler (MouseState.init.after es) e).1 →
        (MouseState.mouseMessageHandler (MouseState.init.after (es ++ [e])) e').1 = [MouseState.toWindow e' wnd] := by
  intro hall
  have hrouted := hall [mouseAt 0 (.down .right)] (mouseAt 1 (.down .left)) (mouseAt 1 (.up .right)) .left 1 (by simp [mouseAt]) rfl
    (by decide) (by decide)
  exact absurd hrouted (by decide)

theorem mouse_capture_routing_oneButton : MouseRouted [mouseAt 1 (.down .left), mouseAt 2 .move, mouseAt 2 (.up .left)] :=
  mouse_capture_routing _ (by simp [mouseAt])

end MiniGui.MouseCapture
