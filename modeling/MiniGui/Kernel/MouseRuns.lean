import MiniGui.Kernel.LWEvent

namespace MiniGui

def Alternates : List Bool → Prop
  | [] => True
  | report :: before => report = (!before.headD false) ∧ Alternates before

inductive MouseButton where
  | left
  | right
deriving DecidableEq, Repr

namespace MouseButton

def bit : MouseButton → BitVec 32 → Bool
  | left, mask => mask.getLsbD 0
  | right, mask => mask.getLsbD 1

def time : MouseButton → EventState → UInt32
  | left, s => s.time1
  | right, s => s.time2

end MouseButton

def MouseKind.report : MouseKind → Option (MouseButton × Bool)
  | .moved => none
  | .leftDown => some (.left, true)
  | .leftUp => some (.left, false)
  | .leftDblClick => some (.left, true)
  | .rightDown => some (.right, true)
  | .rightUp => some (.right, false)
  | .rightDblClick => some (.right, true)

def MouseKind.double : MouseKind → Option MouseButton
  | .leftDblClick => some .left
  | .rightDblClick => some .right
  | _ => none

def LWEvent.mouse? : LWEvent → Option MouseEvent
  | .mouse me => some me
  | _ => none

open LWEvent

structure MouseRun where
  state : EventState
  last : MouseSample
  reports : MouseButton → List Bool
  pressed : MouseButton → Option UInt32

namespace MouseRun

def start (x y : Int) : MouseRun :=
  ⟨.reset x y, ⟨x, y, 0⟩, fun _ => [], fun _ => none⟩

def moves (run : MouseRun) (sample : MouseSample) : Prop :=
  run.last.x ≠ sample.x ∨ run.last.y ≠ sample.y

instance (run : MouseRun) (sample : MouseSample) : Decidable (run.moves sample) :=
  inferInstanceAs (Decidable (_ ∨ _))

def event (conf : EventConf) (run : MouseRun) (call : LWCall) : Option MouseEvent :=
  (run.state.getLWEvent conf call).1.bind mouse?

def held (run : MouseRun) (sample : MouseSample) (b : MouseButton) : Option UInt32 :=
  if run.moves sample then none else run.pressed b

def next (conf : EventConf) (run : MouseRun) (call : LWCall) : MouseRun :=
  let state := (run.state.getLWEvent conf call).2
  match call.mouse with
  | .sample sample =>
    match (run.event conf call).bind (·.event.report) with
    | some (b, down) =>
      { state := state
        last := sample
        reports := fun c => if c = b then down :: run.reports c else run.reports c
        pressed := fun c => if c = b ∧ down = true then some call.now else run.held sample c }
    | none => ⟨state, sample, run.reports, run.held sample⟩
  | _ => { run with state := state }

end MouseRun

def mouseRun (conf : EventConf) (x y : Int) (calls : List LWCall) : MouseRun :=
  calls.foldl (MouseRun.next conf) (.start x y)

structure MouseTranslates (conf : EventConf) (x y : Int) (calls : List LWCall) : Prop where
  alternate : ∀ b, Alternates ((mouseRun conf x y calls).reports b)
  settles : ∀ b, ∃ rounds, ∀ more : List LWCall,
    (∀ call ∈ more, call.mouse = .sample (mouseRun conf x y calls).last) → rounds ≤ more.length →
      ((mouseRun conf x y (calls ++ more)).reports b).headD false = b.bit (mouseRun conf x y calls).last.button
  moves : ∀ before call after sample, calls = before ++ call :: after → call.mouse = .sample sample →
    (mouseRun conf x y before).moves sample →
      ∃ me, (mouseRun conf x y before).event conf call = some me ∧ me.x = sample.x ∧ me.y = sample.y
  double : ∀ before call after sample me b, calls = before ++ call :: after → call.mouse = .sample sample →
    (mouseRun conf x y before).event conf call = some me → me.event.double = some b →
      ∃ time, (mouseRun conf x y before).held sample b = some time ∧ call.now - time ≤ conf.dblclicktime

def EventState.MouseOk (s : EventState) (call : LWCall) : Prop :=
  ∀ sample, call.mouse = .sample sample →
    (MouseButton.left.bit s.oldbutton = MouseButton.left.bit sample.button
        ∨ MouseButton.right.bit s.oldbutton = MouseButton.right.bit sample.button)
      ∧ (s.oldx ≠ sample.x ∨ s.oldy ≠ sample.y → s.oldbutton = sample.button
        ∨ MouseButton.left.bit s.oldbutton ≠ MouseButton.left.bit sample.button
        ∨ MouseButton.right.bit s.oldbutton ≠ MouseButton.right.bit sample.button)

def MouseRun.Ok (conf : EventConf) : MouseRun → List LWCall → Prop
  | _, [] => True
  | run, call :: calls => run.state.MouseOk call ∧ Ok conf (run.next conf call) calls

variable {t : EventState} {b : MouseButton}

section Step

variable {conf : EventConf} {s : EventState} {now : UInt32} {sample : MouseSample}

theorem press_spec (conf : EventConf) (now time : UInt32)
    : ((press conf now time).1 = true → time ≠ 0 ∧ now - time ≤ conf.dblclicktime)
      ∧ ((press conf now time).2 = 0 ∨ (press conf now time).2 = now) := by
  unfold press
  split
  . next h =>
    constructor
    . intro hdouble
      exact ⟨h, of_decide_eq_true hdouble⟩
    . left
      rfl
  constructor
  . intro hdouble
    exact absurd hdouble Bool.false_ne_true
  . right
    rfl

structure Reports (conf : EventConf) (s : EventState) (now : UInt32) (sample : MouseSample) (b : MouseButton)
    (result : Option MouseEvent × EventState) (me : MouseEvent) : Prop where
  event : result.1 = some me
  x : me.x = sample.x
  y : me.y = sample.y
  report : me.event.report = some (b, b.bit sample.button)
  double : ∀ c : MouseButton, me.event.double = some c → c.time s ≠ 0 ∧ now - c.time s ≤ conf.dblclicktime
  oldx : result.2.oldx = s.oldx
  oldy : result.2.oldy = s.oldy
  oldbutton : result.2.oldbutton = sample.button
  time : ∀ c : MouseButton, c.time result.2 = 0 ∨ c.time result.2 = now ∧ c = b ∧ b.bit sample.button = true
    ∨ c.time result.2 = c.time s ∧ (c = b → b.bit sample.button = false)

theorem button_down {single double : MouseKind}
    (hnew : b.bit sample.button = true) (holdx : t.oldx = s.oldx) (holdy : t.oldy = s.oldy)
    (htime : b.time t = (press conf now (b.time s)).2) (hother : ∀ c : MouseButton, c ≠ b → c.time t = c.time s)
    (hsingle : single.report = some (b, true) ∧ single.double = none)
    (hdouble : double.report = some (b, true) ∧ double.double = some b)
    : ∃ me, Reports conf s now sample b
      (t.mouseret sample (if (press conf now (b.time s)).1 then double else single)) me := by
  have hpress := press_spec conf now (b.time s)
  refine ⟨_, rfl, rfl, rfl, ?_, ?_, holdx, holdy, rfl, ?_⟩
  . rw [hnew]
    split
    . exact hdouble.1
    . exact hsingle.1
  . intro c hc
    split at hc
    . next h =>
      rw [hdouble.2] at hc
      cases hc
      exact hpress.1 h
    . rw [hsingle.2] at hc
      cases hc
  intro c
  have hkept : c.time (t.mouseret sample (if (press conf now (b.time s)).1 then double else single)).2 = c.time t := by
    cases c with
    | left => rfl
    | right => rfl
  rw [hkept]
  by_cases hcb : c = b
  . rw [hcb, htime]
    rcases hpress.2 with hzero | hnow
    . left
      exact hzero
    . right
      left
      exact ⟨hnow, rfl, hnew⟩
  . right
    right
    exact ⟨hother c hcb, fun h => absurd h hcb⟩

theorem left_down (hnew : MouseButton.left.bit sample.button = true)
    : ∃ me, Reports conf s now sample .left ({ s with time1 := (press conf now s.time1).2 }.mouseret sample
      (if (press conf now s.time1).1 then .leftDblClick else .leftDown)) me := by
  refine button_down (b := .left) hnew rfl rfl rfl ?_ ⟨rfl, rfl⟩ ⟨rfl, rfl⟩
  intro c hc
  cases c with
  | left => exact absurd rfl hc
  | right => rfl

theorem right_down (hnew : MouseButton.right.bit sample.button = true)
    : ∃ me, Reports conf s now sample .right ({ s with time2 := (press conf now s.time2).2 }.mouseret sample
      (if (press conf now s.time2).1 then .rightDblClick else .rightDown)) me := by
  refine button_down (b := .right) hnew rfl rfl rfl ?_ ⟨rfl, rfl⟩ ⟨rfl, rfl⟩
  intro c hc
  cases c with
  | left => rfl
  | right => exact absurd rfl hc

theorem button_up {b : MouseButton} {event : MouseKind} (hreport : event.report = some (b, false))
    (hdouble : event.double = none) (hnew : b.bit sample.button = false)
    : ∃ me, Reports conf s now sample b (s.mouseret sample event) me := by
  refine ⟨_, rfl, rfl, rfl, ?_, ?_, rfl, rfl, rfl, ?_⟩
  . rw [hnew]
    exact hreport
  . intro c hc
    rw [hdouble] at hc
    cases hc
  intro c
  right
  right
  constructor
  . cases c with
    | left => rfl
    | right => rfl
  . intro _
    exact hnew

theorem eq_of_neither {old new : Bool} (hdown : ¬(!old && new) = true) (hup : ¬(old && !new) = true) : old = new := by
  cases old with
  | false =>
    cases new with
    | false => rfl
    | true => exact absurd rfl hdown
  | true =>
    cases new with
    | false => exact absurd rfl hup
    | true => rfl

theorem ne_of_down {old new : Bool} (h : (!old && new) = true) : old ≠ new ∧ new = true := by
  obtain ⟨hold, hnew⟩ := Bool.and_eq_true_iff.mp h
  rw [Bool.not_eq_true'] at hold
  rw [hold, hnew]
  exact ⟨Bool.false_ne_true, rfl⟩

theorem ne_of_up {old new : Bool} (h : (old && !new) = true) : old ≠ new ∧ new = false := by
  obtain ⟨hold, hnew⟩ := Bool.and_eq_true_iff.mp h
  rw [Bool.not_eq_true'] at hnew
  rw [hold, hnew]
  exact ⟨Bool.false_ne_true.symm, rfl⟩

theorem buttons_spec (conf : EventConf) (s : EventState) (now : UInt32) (sample : MouseSample)
    : ((∀ c : MouseButton, c.bit s.oldbutton = c.bit sample.button) ∧ s.buttons conf now sample = (none, s))
      ∨ ∃ b me, b.bit s.oldbutton ≠ b.bit sample.button ∧ Reports conf s now sample b (s.buttons conf now sample) me := by
  unfold EventState.buttons
  split
  . next h =>
    obtain ⟨hne, hnew⟩ := ne_of_down h
    obtain ⟨me, hme⟩ := left_down hnew
    right
    exact ⟨.left, me, hne, hme⟩
  rename_i hleftDown
  split
  . next h =>
    obtain ⟨hne, hnew⟩ := ne_of_up h
    obtain ⟨me, hme⟩ := @button_up conf s now sample .left .leftUp rfl rfl hnew
    right
    exact ⟨.left, me, hne, hme⟩
  rename_i hleftUp
  split
  . next h =>
    obtain ⟨hne, hnew⟩ := ne_of_down h
    obtain ⟨me, hme⟩ := right_down hnew
    right
    exact ⟨.right, me, hne, hme⟩
  rename_i hrightDown
  split
  . next h =>
    obtain ⟨hne, hnew⟩ := ne_of_up h
    obtain ⟨me, hme⟩ := @button_up conf s now sample .right .rightUp rfl rfl hnew
    right
    exact ⟨.right, me, hne, hme⟩
  rename_i hrightUp
  left
  refine ⟨?_, rfl⟩
  intro c
  cases c with
  | left => exact eq_of_neither hleftDown hleftUp
  | right => exact eq_of_neither hrightDown hrightUp

inductive MouseStep (conf : EventConf) (s : EventState) (now : UInt32) (sample : MouseSample)
    : Option MouseEvent × EventState → Prop where
  | silent (hx : s.oldx = sample.x) (hy : s.oldy = sample.y)
      (hbits : ∀ c : MouseButton, c.bit s.oldbutton = c.bit sample.button)
      : MouseStep conf s now sample (none, s)
  | moved (t : EventState) (hmoved : s.oldx ≠ sample.x ∨ s.oldy ≠ sample.y) (hbutton : s.oldbutton = sample.button)
      (hx : t.oldx = sample.x) (hy : t.oldy = sample.y) (ht : t.oldbutton = sample.button)
      (htime : ∀ c : MouseButton, c.time t = 0)
      : MouseStep conf s now sample (some ⟨.moved, sample.x, sample.y, none⟩, t)
  | button (result : Option MouseEvent × EventState) (t : EventState) (b : MouseButton) (me : MouseEvent)
      (hx : t.oldx = sample.x) (hy : t.oldy = sample.y) (hbutton : t.oldbutton = s.oldbutton)
      (htime : ∀ c : MouseButton, c.time t = if s.oldx ≠ sample.x ∨ s.oldy ≠ sample.y then 0 else c.time s)
      (hchanged : b.bit s.oldbutton ≠ b.bit sample.button) (hreports : Reports conf t now sample b result me)
      : MouseStep conf s now sample result

theorem mouseTurn_step (conf : EventConf) {call : LWCall} (hok : s.MouseOk call) (hsample : call.mouse = .sample sample)
    : MouseStep conf s now sample (s.mouseTurn conf now sample) := by
  unfold EventState.mouseTurn
  split
  . next hmoved =>
    split
    . next hbutton =>
      refine MouseStep.moved _ hmoved hbutton ?_ ?_ ?_ ?_
      . rfl
      . rfl
      . exact hbutton
      intro c
      cases c with
      | left => rfl
      | right => rfl
    rename_i hbutton
    rcases buttons_spec conf { s with oldx := sample.x, oldy := sample.y, time1 := 0, time2 := 0 } now sample
      with ⟨hbits, _⟩ | ⟨b, me, hne, hreports⟩
    . rcases (hok sample hsample).2 hmoved with heq | hleft | hright
      . exact absurd heq hbutton
      . exact absurd (hbits .left) hleft
      . exact absurd (hbits .right) hright
    refine @MouseStep.button conf s now sample _ _ b me ?_ ?_ ?_ ?_ hne hreports
    . rfl
    . rfl
    . rfl
    intro c
    rw [if_pos hmoved]
    cases c with
    | left => rfl
    | right => rfl
  rename_i hmoved
  have hx : s.oldx = sample.x := by
    by_contra h
    exact hmoved (.inl h)
  have hy : s.oldy = sample.y := by
    by_contra h
    exact hmoved (.inr h)
  rcases buttons_spec conf s now sample with ⟨hbits, heq⟩ | ⟨b, me, hne, hreports⟩
  . rw [heq]
    exact MouseStep.silent hx hy hbits
  . refine MouseStep.button _ s b me hx hy rfl ?_ hne hreports
    intro c
    rw [if_neg hmoved]

structure SameMouse (s t : EventState) : Prop where
  oldx : t.oldx = s.oldx
  oldy : t.oldy = s.oldy
  oldbutton : t.oldbutton = s.oldbutton
  time : ∀ c : MouseButton, c.time t = c.time s

theorem SameMouse.refl (s : EventState) : SameMouse s s :=
  ⟨rfl, rfl, rfl, fun _ => rfl⟩

theorem sameMouse_of (hx : t.oldx = s.oldx) (hy : t.oldy = s.oldy)
    (hbutton : t.oldbutton = s.oldbutton) (h1 : t.time1 = s.time1) (h2 : t.time2 = s.time2) : SameMouse s t := by
  refine ⟨hx, hy, hbutton, ?_⟩
  intro c
  cases c with
  | left => exact h1
  | right => exact h2

theorem timeoutTurn_mouse (call : LWCall)
    : SameMouse s (s.timeoutTurn conf call).2 ∧ (s.timeoutTurn conf call).1.bind mouse? = none := by
  unfold EventState.timeoutTurn
  split
  . split
    . split
      . exact ⟨SameMouse.refl s, rfl⟩
      . exact ⟨SameMouse.refl s, rfl⟩
    . exact ⟨SameMouse.refl s, rfl⟩
  . split
    . exact ⟨sameMouse_of rfl rfl rfl rfl rfl, rfl⟩
    . exact ⟨SameMouse.refl s, rfl⟩

theorem keyTurn_mouse (keystate : Nat → Bool) : SameMouse s (s.keyTurn conf now keystate).2 := by
  unfold EventState.keyTurn
  split
  . dsimp only
    split
    . exact sameMouse_of rfl rfl rfl rfl rfl
    . exact sameMouse_of rfl rfl rfl rfl rfl
  split
  . exact SameMouse.refl s
  dsimp only
  split
  . exact sameMouse_of rfl rfl rfl rfl rfl
  . exact sameMouse_of rfl rfl rfl rfl rfl

theorem keyboardTurn_mouse (call : LWCall)
    : SameMouse s (s.keyboardTurn conf call).2 ∧ (s.keyboardTurn conf call).1.bind mouse? = none := by
  unfold EventState.keyboardTurn
  split
  . exact ⟨sameMouse_of rfl rfl rfl rfl rfl, rfl⟩
  . exact ⟨SameMouse.refl s, rfl⟩
  rename_i keystate _
  constructor
  . exact keyTurn_mouse keystate
  dsimp only
  cases (s.keyTurn conf call.now keystate).1 with
  | none => rfl
  | some ke => rfl

theorem getLWEvent_sample {call : LWCall} (hsample : call.mouse = .sample sample)
    : SameMouse (s.mouseTurn conf call.now sample).2 (s.getLWEvent conf call).2
      ∧ (s.getLWEvent conf call).1.bind mouse? = (s.mouseTurn conf call.now sample).1 := by
  unfold EventState.getLWEvent
  rw [hsample]
  dsimp only
  split
  . next me t heq =>
    rw [heq]
    exact ⟨SameMouse.refl t, rfl⟩
  rename_i t heq
  rw [heq]
  split
  . refine ⟨?_, rfl⟩
    split
    . exact sameMouse_of rfl rfl rfl rfl rfl
    . exact SameMouse.refl t
  . exact keyboardTurn_mouse call

theorem getLWEvent_silent {call : LWCall} (hnone : ∀ sample, call.mouse ≠ .sample sample)
    : SameMouse s (s.getLWEvent conf call).2 ∧ (s.getLWEvent conf call).1.bind mouse? = none := by
  unfold EventState.getLWEvent
  split
  . exact timeoutTurn_mouse call
  . split
    . exact timeoutTurn_mouse call
    . exact ⟨SameMouse.refl s, rfl⟩
  . split
    . exact timeoutTurn_mouse call
    . exact ⟨SameMouse.refl s, rfl⟩
  . split
    . exact timeoutTurn_mouse call
    . exact ⟨SameMouse.refl s, rfl⟩
  . split
    . exact keyboardTurn_mouse call
    . exact ⟨SameMouse.refl s, rfl⟩
  . exact keyboardTurn_mouse call
  . next hmouse => exact absurd hmouse (hnone _)

end Step

section Runs

variable {conf : EventConf} {run : MouseRun} {call : LWCall}

theorem other_bit {old new : BitVec 32}
    (hsame : MouseButton.left.bit old = MouseButton.left.bit new ∨ MouseButton.right.bit old = MouseButton.right.bit new)
    (hchanged : b.bit old ≠ b.bit new) (c : MouseButton) (hc : c ≠ b) : c.bit old = c.bit new := by
  rcases hsame with hleft | hright
  . cases c with
    | left => exact hleft
    | right =>
      cases b with
      | left => exact absurd hleft hchanged
      | right => exact absurd rfl hc
  cases c with
  | right => exact hright
  | left =>
    cases b with
    | right => exact absurd hright hchanged
    | left => exact absurd rfl hc

structure MouseRun.Inv (run : MouseRun) : Prop where
  x : run.state.oldx = run.last.x
  y : run.state.oldy = run.last.y
  bits : ∀ b : MouseButton, b.bit run.state.oldbutton = b.bit run.last.button
  reports : ∀ b, (run.reports b).headD false = b.bit run.last.button
  alternate : ∀ b, Alternates (run.reports b)
  pressed : ∀ b : MouseButton, b.time run.state ≠ 0 → run.pressed b = some (b.time run.state)

theorem MouseRun.inv_start (x y : Int) : (MouseRun.start x y).Inv := by
  refine ⟨rfl, rfl, ?_, ?_, fun _ => trivial, ?_⟩
  . intro b
    cases b with
    | left => rfl
    | right => rfl
  . intro b
    cases b with
    | left | right => exact (BitVec.getLsbD_zero).symm
  intro b hb
  cases b with
  | left | right => exact absurd rfl hb

structure MouseRun.Spec (conf : EventConf) (run : MouseRun) (call : LWCall) : Prop where
  inv : (run.next conf call).Inv
  moves : ∀ sample, call.mouse = .sample sample → run.moves sample →
    ∃ me, run.event conf call = some me ∧ me.x = sample.x ∧ me.y = sample.y
  double : ∀ sample me b, call.mouse = .sample sample → run.event conf call = some me → me.event.double = some b →
    ∃ time, run.held sample b = some time ∧ call.now - time ≤ conf.dblclicktime

theorem MouseRun.moves_iff (hinv : run.Inv) (sample : MouseSample)
    : run.moves sample ↔ run.state.oldx ≠ sample.x ∨ run.state.oldy ≠ sample.y := by
  unfold MouseRun.moves
  rw [hinv.x, hinv.y]

theorem MouseRun.next_silent (hinv : run.Inv) (hnone : ∀ sample, call.mouse ≠ .sample sample)
    : Spec conf run call := by
  obtain ⟨hsame, hevent⟩ := @getLWEvent_silent conf run.state call hnone
  have hnext : run.next conf call = { run with state := (run.state.getLWEvent conf call).2 } := by
    unfold MouseRun.next
    split
    . next hmouse => exact absurd hmouse (hnone _)
    . rfl
  refine ⟨?_, ?_, ?_⟩
  . rw [hnext]
    refine ⟨hsame.oldx.trans hinv.x, hsame.oldy.trans hinv.y, ?_, hinv.reports, hinv.alternate, ?_⟩
    . intro b
      rw [hsame.oldbutton]
      exact hinv.bits b
    . intro b hb
      rw [hsame.time b] at hb ⊢
      exact hinv.pressed b hb
  . intro sample hsample
    exact absurd hsample (hnone sample)
  . intro sample me b hsample
    exact absurd hsample (hnone sample)

theorem MouseRun.held_of_time (hinv : run.Inv) {sample : MouseSample}
    (htime : ∀ c : MouseButton, c.time t
      = if run.state.oldx ≠ sample.x ∨ run.state.oldy ≠ sample.y then 0 else c.time run.state)
    (c : MouseButton) (hc : c.time t ≠ 0) : run.held sample c = some (c.time t) := by
  unfold held
  rw [htime c] at hc ⊢
  by_cases hmoved : run.state.oldx ≠ sample.x ∨ run.state.oldy ≠ sample.y
  . rw [if_pos hmoved] at hc
    exact absurd rfl hc
  . rw [if_neg hmoved] at hc ⊢
    rw [if_neg (fun h => hmoved ((moves_iff hinv sample).mp h))]
    exact hinv.pressed c hc

theorem MouseRun.next_eq {sample : MouseSample} (hsample : call.mouse = .sample sample)
    : run.next conf call = match (run.event conf call).bind (·.event.report) with
      | some (b, down) =>
        { state := (run.state.getLWEvent conf call).2
          last := sample
          reports := fun c => if c = b then down :: run.reports c else run.reports c
          pressed := fun c => if c = b ∧ down = true then some call.now else run.held sample c }
      | none => ⟨(run.state.getLWEvent conf call).2, sample, run.reports, run.held sample⟩ := by
  unfold MouseRun.next
  rw [hsample]

theorem MouseRun.next_button (hinv : run.Inv) (hok : run.state.MouseOk call) {sample : MouseSample}
    (hsample : call.mouse = .sample sample) {result : Option MouseEvent × EventState}
    {me : MouseEvent} (hsame : SameMouse result.2 (run.state.getLWEvent conf call).2)
    (hcall : run.event conf call = result.1) (hx : t.oldx = sample.x) (hy : t.oldy = sample.y)
    (htime : ∀ c : MouseButton, c.time t =
      if run.state.oldx ≠ sample.x ∨ run.state.oldy ≠ sample.y then 0 else c.time run.state)
    (hchanged : b.bit run.state.oldbutton ≠ b.bit sample.button)
    (hreports : Reports conf t call.now sample b result me) : Spec conf run call := by
  have hnext := @MouseRun.next_eq conf run call sample hsample
  have hheld := held_of_time hinv htime
  have hother := other_bit (hok sample hsample).1 hchanged
  have hold := (hinv.reports b).trans (hinv.bits b).symm
  rw [hcall, hreports.event] at hnext
  dsimp only [Option.bind] at hnext
  rw [hreports.report] at hnext
  refine ⟨?_, ?_, ?_⟩
  . rw [hnext]
    refine ⟨?_, ?_, ?_, ?_, ?_, ?_⟩
    . exact hsame.oldx.trans (hreports.oldx.trans hx)
    . exact hsame.oldy.trans (hreports.oldy.trans hy)
    . intro c
      rw [hsame.oldbutton, hreports.oldbutton]
    . intro c
      dsimp only
      by_cases hc : c = b
      . rw [if_pos hc, hc]
        rfl
      . rw [if_neg hc, ← hother c hc, hinv.bits c]
        exact hinv.reports c
    . intro c
      dsimp only
      by_cases hc : c = b
      . rw [if_pos hc, hc]
        refine ⟨?_, hinv.alternate b⟩
        rw [hold]
        exact Bool.eq_not.mpr hchanged.symm
      . rw [if_neg hc]
        exact hinv.alternate c
    intro c hc
    dsimp only at hc ⊢
    rw [hsame.time c] at hc ⊢
    rcases hreports.time c with hzero | ⟨hnow, hb, hdown⟩ | ⟨hkept, hup⟩
    . exact absurd hzero hc
    . rw [if_pos ⟨hb, hdown⟩, hnow]
    . rw [if_neg (fun hand => Bool.false_ne_true ((hup hand.1).symm.trans hand.2))]
      rw [hkept] at hc ⊢
      exact hheld c hc
  . intro sample' hsample' _
    rw [hsample] at hsample'
    cases hsample'
    exact ⟨me, hcall.trans hreports.event, hreports.x, hreports.y⟩
  intro sample' me' c hsample' hme hdouble
  rw [hsample] at hsample'
  cases hsample'
  rw [hcall, hreports.event] at hme
  cases hme
  obtain ⟨hne, hle⟩ := hreports.double c hdouble
  exact ⟨c.time t, hheld c hne, hle⟩

theorem MouseRun.next_sample (hinv : run.Inv) (hok : run.state.MouseOk call) {sample : MouseSample}
    (hsample : call.mouse = .sample sample) : Spec conf run call := by
  obtain ⟨hsame, hevent⟩ := @getLWEvent_sample conf run.state sample call hsample
  have hstep := @mouseTurn_step run.state call.now sample conf call hok hsample
  have hcall : run.event conf call = (run.state.mouseTurn conf call.now sample).1 := hevent
  generalize run.state.mouseTurn conf call.now sample = result at hsame hevent hstep hcall
  have hnext := @MouseRun.next_eq conf run call sample hsample
  cases hstep with
  | silent hx hy hbits =>
    have hheld (c : MouseButton) (hc : c.time run.state ≠ 0) : run.held sample c = some (c.time run.state) :=
      held_of_time hinv (fun c => by simp [hx, hy]) c hc
    rw [hcall] at hnext
    dsimp only [Option.bind] at hnext
    refine ⟨?_, ?_, ?_⟩
    . rw [hnext]
      refine ⟨hsame.oldx.trans hx, hsame.oldy.trans hy, ?_, ?_, hinv.alternate, ?_⟩
      . intro b
        rw [hsame.oldbutton]
        exact hbits b
      . intro b
        exact (hinv.reports b).trans ((hinv.bits b).symm.trans (hbits b))
      . intro b hb
        rw [hsame.time b] at hb ⊢
        exact hheld b hb
    . intro sample' hsample' hmoves
      rw [hsample] at hsample'
      cases hsample'
      rcases (moves_iff hinv sample).mp hmoves with h | h
      . exact absurd hx h
      . exact absurd hy h
    . intro sample' me b _ hme
      rw [hcall] at hme
      cases hme
  | moved t hmoved hbutton hx hy ht htime =>
    rw [hcall] at hnext
    dsimp only [Option.bind, MouseKind.report] at hnext
    refine ⟨?_, ?_, ?_⟩
    . rw [hnext]
      refine ⟨hsame.oldx.trans hx, hsame.oldy.trans hy, ?_, ?_, hinv.alternate, ?_⟩
      . intro b
        rw [hsame.oldbutton, ht]
      . intro b
        rw [← hbutton, hinv.bits b]
        exact hinv.reports b
      . intro b hb
        rw [hsame.time b] at hb
        exact absurd (htime b) hb
    . intro sample' hsample' _
      rw [hsample] at hsample'
      cases hsample'
      exact ⟨_, hcall, rfl, rfl⟩
    intro sample' me b _ hme hdouble
    rw [hcall] at hme
    cases hme
    cases hdouble
  | button result t b me hx hy hbutton htime hchanged hreports =>
    exact next_button hinv hok hsample hsame hcall hx hy htime hchanged hreports

theorem MouseRun.next_spec (hinv : run.Inv) (hok : run.state.MouseOk call) : Spec conf run call := by
  cases hmouse : call.mouse with
  | sample sample => exact next_sample hinv hok hmouse
  | silent | failed => exact next_silent hinv (fun sample h => by rw [hmouse] at h; cases h)

theorem mouseRun_append (conf : EventConf) (x y : Int) (calls more : List LWCall)
    : mouseRun conf x y (calls ++ more) = more.foldl (MouseRun.next conf) (mouseRun conf x y calls) :=
  List.foldl_append

theorem MouseRun.inv_calls {calls : List LWCall} (hinv : run.Inv) (hok : run.Ok conf calls)
    : (calls.foldl (MouseRun.next conf) run).Inv := by
  induction calls generalizing run with
  | nil => exact hinv
  | cons call calls ih => exact ih (next_spec hinv hok.1).inv hok.2

theorem MouseRun.ok_append {before : List LWCall} {after : List LWCall} (hok : run.Ok conf (before ++ after))
    : run.Ok conf before ∧ (before.foldl (MouseRun.next conf) run).Ok conf after := by
  induction before generalizing run with
  | nil => exact ⟨trivial, hok⟩
  | cons call before ih => exact ⟨⟨hok.1, (ih hok.2).1⟩, (ih hok.2).2⟩

theorem MouseRun.next_constant (hinv : run.Inv) (hcall : call.mouse = .sample run.last)
    : (run.next conf call).Inv ∧ (run.next conf call).last = run.last ∧ (run.next conf call).reports = run.reports := by
  have hok : run.state.MouseOk call := by
    intro sample hsample
    rw [hcall] at hsample
    cases hsample
    refine ⟨.inl (hinv.bits .left), ?_⟩
    rintro (h | h)
    . exact absurd hinv.x h
    . exact absurd hinv.y h
  refine ⟨(next_spec hinv hok).inv, ?_⟩
  obtain ⟨_, hevent⟩ := @getLWEvent_sample conf run.state run.last call hcall
  have hstep := @mouseTurn_step run.state call.now run.last conf call hok hcall
  have hnone : run.event conf call = none := by
    unfold MouseRun.event
    rw [hevent]
    generalize run.state.mouseTurn conf call.now run.last = result at hstep
    cases hstep with
    | silent => rfl
    | moved t hmoved =>
      rcases hmoved with h | h
      . exact absurd hinv.x h
      . exact absurd hinv.y h
    | button result t b me hx hy hbutton htime hchanged => exact absurd (hinv.bits b) hchanged
  unfold MouseRun.next
  rw [hcall, hnone]
  exact ⟨rfl, rfl⟩

theorem MouseRun.constant (hinv : run.Inv) (more : List LWCall) (hmore : ∀ call ∈ more, call.mouse = .sample run.last)
    : (more.foldl (MouseRun.next conf) run).reports = run.reports := by
  induction more generalizing run with
  | nil => rfl
  | cons call more ih =>
    obtain ⟨hnext, hlast, hreports⟩ := @MouseRun.next_constant conf run call hinv (hmore call List.mem_cons_self)
    rw [List.foldl_cons, ih hnext, hreports]
    intro c hc
    rw [hlast]
    exact hmore c (List.mem_cons_of_mem _ hc)

/--
A run in which left and right never change together, and no movement comes with a change of the other buttons alone.
-/
theorem mouseTranslates_of_ok (conf : EventConf) (x y : Int) (calls : List LWCall)
    (hok : (MouseRun.start x y).Ok conf calls) : MouseTranslates conf x y calls := by
  have hinv : (mouseRun conf x y calls).Inv := MouseRun.inv_calls (MouseRun.inv_start x y) hok
  refine ⟨hinv.alternate, ?_, ?_, ?_⟩
  . intro b
    refine ⟨0, ?_⟩
    intro more hmore _
    rw [mouseRun_append, MouseRun.constant hinv more hmore]
    exact hinv.reports b
  . intro before call after sample hcalls hsample hmoves
    rw [hcalls] at hok
    obtain ⟨hbefore, hcall, _⟩ := MouseRun.ok_append hok
    have hspec := @MouseRun.next_spec conf _ call (MouseRun.inv_calls (MouseRun.inv_start x y) hbefore) hcall
    exact hspec.moves sample hsample hmoves
  intro before call after sample me b hcalls hsample hme hdouble
  rw [hcalls] at hok
  obtain ⟨hbefore, hcall, _⟩ := MouseRun.ok_append hok
  have hspec := @MouseRun.next_spec conf _ call (MouseRun.inv_calls (MouseRun.inv_start x y) hbefore) hcall
  exact hspec.double sample me b hsample hme hdouble

def plainConf (threads : Bool) : EventConf :=
  ⟨threads, 128, 30, 0, 0, 0⟩

def movedClick : List LWCall :=
  [⟨5, .sample ⟨3, 4, 0⟩, .silent, false⟩, ⟨6, .sample ⟨3, 4, 1⟩, .silent, false⟩, ⟨7, .sample ⟨3, 4, 0⟩, .silent, false⟩]

theorem mouseTranslates_of_ok_click
    : (MouseRun.start 0 0).Ok (plainConf false) movedClick ∧ MouseTranslates (plainConf false) 0 0 movedClick := by
  have hok : (MouseRun.start 0 0).Ok (plainConf false) movedClick := by
    refine ⟨?_, ?_, ?_, trivial⟩
    . intro sample h
      cases h
      decide
    . intro sample h
      cases h
      decide
    . intro sample h
      cases h
      decide
  exact ⟨hok, mouseTranslates_of_ok (plainConf false) 0 0 movedClick hok⟩

theorem not_mouseTranslates_middle : ¬MouseTranslates (plainConf true) 0 0 [⟨5, .sample ⟨3, 4, 4⟩, .silent, false⟩] := by
  intro h
  obtain ⟨me, hme, _⟩ := h.moves [] _ [] _ rfl rfl (Or.inl (by decide))
  have hnone : (MouseRun.start 0 0).event (plainConf true) ⟨5, .sample ⟨3, 4, 4⟩, .silent, false⟩ = none := by decide
  cases hnone.symm.trans hme

end Runs

end MiniGui
