import MiniGui.Kernel.MouseRuns

namespace MiniGui

open List

def EventConf.IsKey (conf : EventConf) (i : Nat) : Prop :=
  1 ≤ i ∧ i < conf.nrKeys

instance (conf : EventConf) (i : Nat) : Decidable (conf.IsKey i) :=
  inferInstanceAs (Decidable (_ ∧ _))

inductive Modifier where
  | leftCtrl
  | rightCtrl
  | leftAlt
  | rightAlt
  | leftShift
  | rightShift
deriving DecidableEq, Repr

namespace Modifier

def bit : Modifier → Nat
  | leftCtrl => 5
  | rightCtrl => 4
  | leftAlt => 3
  | rightAlt => 2
  | leftShift => 1
  | rightShift => 0

def scancode : Modifier → Nat
  | leftCtrl => 29
  | rightCtrl => 97
  | leftAlt => 56
  | rightAlt => 100
  | leftShift => 42
  | rightShift => 54

def pressed : Modifier → ShiftKeys → Bool
  | leftCtrl, shifts => shifts.control1
  | rightCtrl, shifts => shifts.control2
  | leftAlt, shifts => shifts.alt1
  | rightAlt, shifts => shifts.alt2
  | leftShift, shifts => shifts.shift1
  | rightShift, shifts => shifts.shift2

end Modifier

def KeyKind.report : KeyKind → Option Bool
  | .down => some true
  | .up => some false
  | .longPress => none
  | .alwaysPress => none

def LWEvent.key? : LWEvent → Option KeyEvent
  | .key ke => some ke
  | _ => none

def LWEvent.status? : LWEvent → Option (BitVec 32)
  | .mouse me => me.status
  | .key ke => some ke.status
  | .timeout => none

/--
The keyboard sample that a call takes: none where the mouse has an event.
-/
def EventState.sampled (conf : EventConf) (s : EventState) (call : LWCall) : Option (Nat → Bool) :=
  match call.mouse, call.keyboard with
  | .silent, .sample keystate => some keystate
  | .failed, .sample keystate => if conf.threads then some keystate else none
  | .sample sample, .sample keystate => if (s.mouseTurn conf call.now sample).1.isNone then some keystate else none
  | _, _ => none

open EventState (sampled)

structure KeyRun where
  state : EventState
  sample : Nat → Bool
  transitions : Nat → List Bool
  changes : Nat → List Bool
  down : Nat → Bool

namespace KeyRun

def start (x y : Int) : KeyRun :=
  ⟨.reset x y, fun _ => false, fun _ => [], fun _ => [], fun _ => false⟩

def event (conf : EventConf) (run : KeyRun) (call : LWCall) : Option LWEvent :=
  (run.state.getLWEvent conf call).1

def Changes (conf : EventConf) (run : KeyRun) (call : LWCall) : Prop :=
  ∃ keystate, run.state.sampled conf call = some keystate ∧ ∃ i, conf.IsKey i ∧ run.sample i ≠ keystate i

def report (conf : EventConf) (run : KeyRun) (call : LWCall) (k : Nat) : Option Bool :=
  ((run.event conf call).bind LWEvent.key?).bind fun ke => if ke.scancode = k then ke.event.report else none

open Classical in
noncomputable def next (conf : EventConf) (run : KeyRun) (call : LWCall) : KeyRun where
  state := (run.state.getLWEvent conf call).2
  sample := (run.state.sampled conf call).getD run.sample
  transitions := fun k =>
    match run.state.sampled conf call with
    | some keystate =>
      if conf.IsKey k ∧ run.sample k ≠ keystate k then keystate k :: run.transitions k else run.transitions k
    | none => run.transitions k
  changes := fun k =>
    match run.report conf call k with
    | some down => if run.Changes conf call then down :: run.changes k else run.changes k
    | none => run.changes k
  down := fun k => (run.report conf call k).getD (run.down k)

end KeyRun

noncomputable def keyRun (conf : EventConf) (x y : Int) (calls : List LWCall) : KeyRun :=
  calls.foldl (KeyRun.next conf) (.start x y)

structure KeyTranslates (conf : EventConf) (x y : Int) (calls : List LWCall) : Prop where
  alternate : ∀ k, Alternates ((keyRun conf x y calls).changes k)
  reported : ∀ k, ∃ rounds, ∀ more : List LWCall,
    (∀ call ∈ more, call.mouse = .silent ∧ call.keyboard = .sample (keyRun conf x y calls).sample) →
      rounds ≤ more.length → (keyRun conf x y (calls ++ more)).changes k = (keyRun conf x y calls).transitions k
  held : ∀ before call after ke, calls = before ++ call :: after →
    (keyRun conf x y before).event conf call = some (.key ke) → ¬(keyRun conf x y before).Changes conf call →
      (keyRun conf x y before).sample ke.scancode = true
  status : ∀ before call after event status, calls = before ++ call :: after →
    (keyRun conf x y before).event conf call = some event → event.status? = some status →
      ∀ m : Modifier, status.getLsbD m.bit = (keyRun conf x y (before ++ [call])).down m.scancode

def EventState.KeyOk (conf : EventConf) (s : EventState) (call : LWCall) : Prop :=
  ∀ keystate, s.sampled conf call = some keystate →
    (∀ i j, conf.IsKey i → conf.IsKey j → s.oldkeystate i ≠ keystate i → s.oldkeystate j ≠ keystate j → i = j)
      ∧ ((∀ i, conf.IsKey i → s.oldkeystate i = keystate i) → s.olddownkey = 0 ∨ keystate s.olddownkey = true
        ∨ (treatLongpress conf call.now (call.now - s.keTime) s.longpress).1 = none)

def KeyRun.Ok (conf : EventConf) : KeyRun → List LWCall → Prop
  | _, [] => True
  | run, call :: calls => run.state.KeyOk conf call ∧ Ok conf (run.next conf call) calls

variable {i : Nat} {keystate : Nat → Bool} {t : EventState}

section Step

variable {conf : EventConf} {s : EventState} {now : UInt32}

theorem press_pressed (shifts : ShiftKeys) (i : Nat) (make : Bool) (m : Modifier)
    : m.pressed (shifts.press i make) = if i = m.scancode then make else m.pressed shifts := by
  unfold ShiftKeys.press
  by_cases h29 : i = 29
  . cases m with
    | _ => simp [h29, Modifier.pressed, Modifier.scancode]
  by_cases h97 : i = 97
  . cases m with
    | _ => simp [h97, Modifier.pressed, Modifier.scancode]
  by_cases h42 : i = 42
  . cases m with
    | _ => simp [h42, Modifier.pressed, Modifier.scancode]
  by_cases h54 : i = 54
  . cases m with
    | _ => simp [h54, Modifier.pressed, Modifier.scancode]
  by_cases h56 : i = 56
  . cases m with
    | _ => simp [h56, Modifier.pressed, Modifier.scancode]
  by_cases h100 : i = 100
  . cases m with
    | _ => simp [h100, Modifier.pressed, Modifier.scancode]
  rw [if_neg h29, if_neg h97, if_neg h42, if_neg h54, if_neg h56, if_neg h100]
  cases m with
  | leftCtrl => exact (if_neg h29).symm
  | rightCtrl => exact (if_neg h97).symm
  | leftAlt => exact (if_neg h56).symm
  | rightAlt => exact (if_neg h100).symm
  | leftShift => exact (if_neg h42).symm
  | rightShift => exact (if_neg h54).symm

theorem statusBit_getLsbD (b : Bool) {n m : Nat} (hm : m < 32) : (statusBit b n).getLsbD m = (b && decide (m = n)) := by
  unfold statusBit
  cases b with
  | false => simp
  | true =>
    rw [if_pos rfl, BitVec.getLsbD_shiftLeft, BitVec.getLsbD_one]
    by_cases h : m = n
    . simp [h]
      omega
    . simp [h]
      omega

theorem statusBit_getElem (b : Bool) {n m : Nat} (hm : m < 32) : (statusBit b n)[m] = (b && decide (m = n)) := by
  rw [← BitVec.getLsbD_eq_getElem]
  exact statusBit_getLsbD b hm

theorem shiftStatus_bit (status : BitVec 32) (locks : LockKeys) (shifts : ShiftKeys) (oldbutton : BitVec 32)
    (m : Modifier) : (shiftStatus status locks shifts oldbutton).getLsbD m.bit = m.pressed shifts := by
  have hkeys : ((status &&& ~~~(0xFFF#32)) ||| (statusBit locks.capslock 8 ||| statusBit locks.numlock 7
      ||| statusBit locks.slock 6 ||| statusBit shifts.control1 5 ||| statusBit shifts.control2 4
      ||| statusBit shifts.alt1 3 ||| statusBit shifts.alt2 2 ||| statusBit shifts.shift1 1
      ||| statusBit shifts.shift2 0)).getLsbD m.bit = m.pressed shifts := by
    cases m with
    | _ => simp [Modifier.bit, Modifier.pressed, statusBit_getElem]
  unfold shiftStatus
  split
  . rw [BitVec.getLsbD_or, hkeys]
    cases m with
    | _ => simp [Modifier.bit]
  split
  . rw [BitVec.getLsbD_or, hkeys]
    cases m with
    | _ => simp [Modifier.bit]
  . exact hkeys

structure SameKeyState (s t : EventState) : Prop where
  oldkeystate : t.oldkeystate = s.oldkeystate
  olddownkey : t.olddownkey = s.olddownkey
  keTime : t.keTime = s.keTime
  longpress : t.longpress = s.longpress
  shifts : t.shifts = s.shifts
  status : ∀ m : Modifier, t.status.getLsbD m.bit = s.status.getLsbD m.bit
  oldLwe : ∀ ke, t.oldLwe = some (.key ke) → s.oldLwe = some (.key ke) ∧ t.status = s.status

theorem SameKeyState.refl (s : EventState) : SameKeyState s s :=
  ⟨rfl, rfl, rfl, rfl, rfl, fun _ => rfl, fun _ h => ⟨h, rfl⟩⟩

theorem SameKeyState.times (hsame : SameKeyState s t) (time1 time2 : UInt32)
    : SameKeyState s { t with time1, time2 } :=
  ⟨hsame.oldkeystate, hsame.olddownkey, hsame.keTime, hsame.longpress, hsame.shifts, hsame.status, hsame.oldLwe⟩

theorem mouseret_keys (sample : MouseSample) (event : MouseKind) (hsame : SameKeyState s t) (hstatus : t.status = s.status)
    : SameKeyState s (t.mouseret sample event).2
      ∧ ∃ me, (t.mouseret sample event).1 = some me ∧ me.status = some (t.mouseret sample event).2.status := by
  refine ⟨⟨hsame.oldkeystate, hsame.olddownkey, hsame.keTime, hsame.longpress, hsame.shifts, ?_, ?_⟩, _, rfl, rfl⟩
  . intro m
    unfold EventState.mouseret
    rw [hstatus]
    cases m with
    | _ =>
      split
      . split
        . simp [Modifier.bit]
        . simp [Modifier.bit]
      . split
        . simp [Modifier.bit]
        . simp [Modifier.bit]
  . intro ke h
    cases h

structure MouseKeys (s : EventState) (result : Option MouseEvent × EventState) : Prop where
  same : SameKeyState s result.2
  status : ∀ me status, result.1 = some me → me.status = some status → status = result.2.status

theorem mouseret_mouseKeys (sample : MouseSample) (event : MouseKind) (hsame : SameKeyState s t)
    (hstatus : t.status = s.status) : MouseKeys s (t.mouseret sample event) := by
  obtain ⟨hkept, me, hme, hmeStatus⟩ := mouseret_keys sample event hsame hstatus
  refine ⟨hkept, ?_⟩
  intro me' status hme' hstatus'
  rw [hme] at hme'
  cases hme'
  rw [hmeStatus] at hstatus'
  cases hstatus'
  rfl

theorem buttons_keys (sample : MouseSample) (hsame : SameKeyState s t) (hstatus : t.status = s.status)
    : MouseKeys s (t.buttons conf now sample) := by
  unfold EventState.buttons
  split
  . exact mouseret_mouseKeys sample _ (hsame.times _ _) hstatus
  split
  . exact mouseret_mouseKeys sample _ (hsame.times _ _) hstatus
  split
  . exact mouseret_mouseKeys sample _ (hsame.times _ _) hstatus
  split
  . exact mouseret_mouseKeys sample _ (hsame.times _ _) hstatus
  refine ⟨hsame, ?_⟩
  intro me status hme
  cases hme

theorem mouseTurn_keys (sample : MouseSample) : MouseKeys s (s.mouseTurn conf now sample) := by
  unfold EventState.mouseTurn
  split
  . dsimp only
    split
    . refine ⟨⟨rfl, rfl, rfl, rfl, rfl, fun _ => rfl, fun _ h => ⟨h, rfl⟩⟩, ?_⟩
      intro me status hme hstatus
      cases hme
      cases hstatus
    . exact buttons_keys sample ⟨rfl, rfl, rfl, rfl, rfl, fun _ => rfl, fun _ h => ⟨h, rfl⟩⟩ rfl
  . exact buttons_keys sample ⟨rfl, rfl, rfl, rfl, rfl, fun _ => rfl, fun _ h => ⟨h, rfl⟩⟩ rfl

theorem firstChanged_some (h : s.firstChanged conf keystate = some i)
    : conf.IsKey i ∧ s.oldkeystate i ≠ keystate i := by
  unfold EventState.firstChanged at h
  have hmem := mem_of_find?_eq_some h
  have hne := find?_some h
  rw [mem_range'_1] at hmem
  refine ⟨⟨hmem.1, ?_⟩, ?_⟩
  . have hlt := hmem.2
    omega
  . intro heq
    rw [heq] at hne
    simp at hne

theorem firstChanged_none (h : s.firstChanged conf keystate = none) (i : Nat)
    (hi : conf.IsKey i) : s.oldkeystate i = keystate i := by
  unfold EventState.firstChanged at h
  rw [find?_eq_none] at h
  have hmem : i ∈ range' 1 (conf.nrKeys - 1) := by
    rw [mem_range'_1]
    have hlt := hi.2
    have hpos := hi.1
    omega
  have hne := h i hmem
  simpa using hne

inductive KeyStep (conf : EventConf) (s : EventState) (now : UInt32) (keystate : Nat → Bool)
    : Option KeyEvent × EventState → Prop where
  | change (i : Nat) (ke : KeyEvent) (t : EventState) (hi : conf.IsKey i) (hne : s.oldkeystate i ≠ keystate i)
      (hscancode : ke.scancode = i) (hreport : ke.event.report = some (keystate i)) (hstatus : ke.status = t.status)
      (hkeys : ∀ k, conf.IsKey k → t.oldkeystate k = keystate k)
      (hdown : t.olddownkey = s.olddownkey ∨ t.olddownkey = i)
      (hshifts : ∀ m : Modifier, m.pressed t.shifts = if i = m.scancode then keystate i else m.pressed s.shifts)
      (hbits : ∀ m : Modifier, t.status.getLsbD m.bit = m.pressed t.shifts) (hlwe : t.oldLwe = some (.key ke))
      : KeyStep conf s now keystate (some ke, t)
  | again (ke : KeyEvent) (t : EventState) (hsame : ∀ k, conf.IsKey k → s.oldkeystate k = keystate k)
      (hzero : s.olddownkey ≠ 0) (hscancode : ke.scancode = s.olddownkey)
      (hdue : (treatLongpress conf now (now - s.keTime) s.longpress).1 = some ke.event) (hstatus : ke.status = s.status)
      (hkeys : ∀ k, conf.IsKey k → t.oldkeystate k = keystate k) (hdown : t.olddownkey = s.olddownkey)
      (hshifts : t.shifts = s.shifts) (hbits : t.status = s.status) (hlwe : t.oldLwe = some (.key ke))
      : KeyStep conf s now keystate (some ke, t)
  | silent (t : EventState) (hsame : ∀ k, conf.IsKey k → s.oldkeystate k = keystate k)
      (hkeys : t.oldkeystate = s.oldkeystate) (hdown : t.olddownkey = s.olddownkey) (hshifts : t.shifts = s.shifts)
      (hbits : t.status = s.status) (hlwe : t.oldLwe = s.oldLwe) : KeyStep conf s now keystate (none, t)

theorem keyTurn_step (conf : EventConf) (s : EventState) (now : UInt32) (keystate : Nat → Bool)
    : KeyStep conf s now keystate (s.keyTurn conf now keystate) := by
  unfold EventState.keyTurn
  split
  . next i hfirst =>
    obtain ⟨hi, hne⟩ := firstChanged_some hfirst
    dsimp only
    split
    . next hmake =>
      refine KeyStep.change i _ _ hi hne rfl ?_ rfl ?_ (.inr rfl) (press_pressed s.shifts i (keystate i)) ?_ rfl
      . rw [hmake]
        rfl
      . intro k hk
        exact if_pos hk.2
      . intro m
        exact shiftStatus_bit _ _ _ _ m
    rename_i hmake
    rw [Bool.not_eq_true] at hmake
    refine KeyStep.change i _ _ hi hne rfl ?_ rfl ?_ (.inl rfl) (press_pressed s.shifts i (keystate i)) ?_ rfl
    . rw [hmake]
      rfl
    . intro k hk
      exact if_pos hk.2
    . intro m
      exact shiftStatus_bit _ _ _ _ m
  rename_i hfirst
  have hsame := firstChanged_none hfirst
  split
  . exact KeyStep.silent s hsame rfl rfl rfl rfl rfl
  rename_i hzero
  dsimp only
  split
  . exact KeyStep.silent _ hsame rfl rfl rfl rfl rfl
  rename_i event hdue
  refine KeyStep.again _ _ hsame hzero rfl hdue rfl ?_ rfl rfl rfl rfl
  intro k hk
  exact if_pos hk.2

inductive CallStep (conf : EventConf) (s : EventState) (call : LWCall) : Option LWEvent × EventState → Prop where
  | sample (keystate : Nat → Bool) (t : EventState) (result : Option KeyEvent × EventState)
      (hsampled : s.sampled conf call = some keystate) (hsame : SameKeyState s t)
      (hstep : KeyStep conf t call.now keystate result) : CallStep conf s call (result.1.map .key, result.2)
  | mouse (result : Option LWEvent × EventState) (hsampled : s.sampled conf call = none) (hsame : SameKeyState s result.2)
      (hkey : ∀ ke, result.1 ≠ some (.key ke))
      (hstatus : ∀ event status, result.1 = some event → event.status? = some status → status = result.2.status)
      : CallStep conf s call result
  | again (ke : KeyEvent) (hsampled : s.sampled conf call = none) (hlwe : s.oldLwe = some (.key ke))
      (hdown : ke.event = .down)
      : CallStep conf s call (some (.key { ke with status := ke.status ||| 0x800#32 }), s)

theorem CallStep.nothing {call : LWCall} (hsampled : s.sampled conf call = none)
    (hsame : SameKeyState s t) : CallStep conf s call (none, t) := by
  refine CallStep.mouse _ hsampled hsame ?_ ?_
  . intro ke h
    cases h
  . intro event status h
    cases h

theorem timeoutTurn_call {call : LWCall} (hsampled : s.sampled conf call = none)
    : CallStep conf s call (s.timeoutTurn conf call) := by
  have htimeout : CallStep conf s call (some .timeout, s) := by
    refine CallStep.mouse _ hsampled (SameKeyState.refl s) ?_ ?_
    . intro ke h
      cases h
    . intro event status h hstatus
      cases h
      cases hstatus
  unfold EventState.timeoutTurn
  split
  . split
    . next ke hlwe =>
      split
      . next hdown => exact CallStep.again ke hsampled hlwe hdown
      . exact htimeout
    . exact htimeout
  split
  . apply CallStep.nothing hsampled
    refine ⟨rfl, rfl, rfl, rfl, rfl, fun _ => rfl, ?_⟩
    intro ke h
    cases h
  . exact CallStep.nothing hsampled (SameKeyState.refl s)

theorem silentTurn_call {call : LWCall} (hsampled : s.sampled conf call = none)
    : CallStep conf s call (if conf.threads then s.timeoutTurn conf call else (none, s)) := by
  split
  . exact timeoutTurn_call hsampled
  . exact CallStep.nothing hsampled (SameKeyState.refl s)

theorem keyboardTurn_call {call : LWCall}
    (hsampled : s.sampled conf call = some keystate) (hkeyboard : call.keyboard = .sample keystate)
    (hsame : SameKeyState s t) : CallStep conf s call (t.keyboardTurn conf call) := by
  unfold EventState.keyboardTurn
  rw [hkeyboard]
  exact CallStep.sample keystate t _ hsampled hsame (keyTurn_step conf t call.now keystate)

theorem SameKeyState.clear (hsame : SameKeyState s t) : SameKeyState s { t with oldLwe := none } := by
  refine ⟨hsame.oldkeystate, hsame.olddownkey, hsame.keTime, hsame.longpress, hsame.shifts, hsame.status, ?_⟩
  intro ke h
  cases h

theorem getLWEvent_call (conf : EventConf) (s : EventState) (call : LWCall)
    : CallStep conf s call (s.getLWEvent conf call) := by
  unfold EventState.getLWEvent
  split
  . next hmouse hkeyboard => exact timeoutTurn_call (by simp [sampled, hmouse, hkeyboard])
  . next hmouse hkeyboard => exact silentTurn_call (by simp [sampled, hmouse, hkeyboard])
  . next hmouse hkeyboard => exact silentTurn_call (by simp [sampled, hmouse, hkeyboard])
  . next hmouse hkeyboard => exact silentTurn_call (by simp [sampled, hmouse, hkeyboard])
  . next keystate hmouse hkeyboard =>
    split
    . next hthreads =>
      exact keyboardTurn_call (by simp [sampled, hmouse, hkeyboard, hthreads]) hkeyboard (SameKeyState.refl s)
    . next hthreads =>
      exact CallStep.nothing (by simp [sampled, hmouse, hkeyboard, hthreads]) (SameKeyState.refl s)
  . next keystate hmouse hkeyboard =>
    exact keyboardTurn_call (by simp [sampled, hmouse, hkeyboard]) hkeyboard (SameKeyState.refl s)
  rename_i sample hmouse
  have hkeys := @mouseTurn_keys conf s call.now sample
  split
  . next me t hturn =>
    rw [hturn] at hkeys
    refine CallStep.mouse _ ?_ hkeys.same ?_ ?_
    . cases hkeyboard : call.keyboard with
      | _ => simp [sampled, hmouse, hkeyboard, hturn]
    . intro ke h
      cases h
    . intro event status h hstatus
      cases h
      exact hkeys.status me status rfl hstatus
  rename_i t hturn
  rw [hturn] at hkeys
  cases hkeyboard : call.keyboard with
  | failed =>
    apply CallStep.nothing
    . simp [sampled, hmouse, hkeyboard]
    . split
      . exact hkeys.same.clear
      . exact hkeys.same
  | silent =>
    unfold EventState.keyboardTurn
    rw [hkeyboard]
    exact CallStep.nothing (by simp [sampled, hmouse, hkeyboard]) hkeys.same.clear
  | sample keystate =>
    exact keyboardTurn_call (by simp [sampled, hmouse, hkeyboard, hturn]) hkeyboard hkeys.same

end Step

section Runs

variable {conf : EventConf} {run : KeyRun} {call : LWCall}

structure KeyRun.Inv (conf : EventConf) (run : KeyRun) : Prop where
  sample : ∀ i, conf.IsKey i → run.state.oldkeystate i = run.sample i
  head : ∀ i, conf.IsKey i → (run.transitions i).headD false = run.sample i
  alternate : ∀ i, Alternates (run.transitions i)
  changes : run.changes = run.transitions
  down : ∀ i, run.down i = (decide (conf.IsKey i) && run.sample i)
  olddownkey : run.state.olddownkey = 0 ∨ conf.IsKey run.state.olddownkey
  shifts : ∀ m : Modifier, m.pressed run.state.shifts = run.down m.scancode
  bits : ∀ m : Modifier, run.state.status.getLsbD m.bit = run.down m.scancode
  oldLwe : ∀ ke, run.state.oldLwe = some (.key ke) →
    ke.status = run.state.status ∧ (ke.event = .down → run.down ke.scancode = true)

theorem KeyRun.inv_start (x y : Int) : (KeyRun.start x y).Inv conf := by
  refine ⟨fun _ _ => rfl, fun _ _ => rfl, fun _ => trivial, rfl, ?_, .inl rfl, ?_, ?_, ?_⟩
  . intro i
    exact (Bool.and_false _).symm
  . intro m
    cases m with
    | _ => rfl
  . intro m
    exact BitVec.getLsbD_zero
  . intro ke h
    cases h

structure KeyRun.Spec (conf : EventConf) (run : KeyRun) (call : LWCall) : Prop where
  inv : (run.next conf call).Inv conf
  held : ∀ ke, run.event conf call = some (.key ke) → ¬run.Changes conf call → run.sample ke.scancode = true
  status : ∀ event status, run.event conf call = some event → event.status? = some status →
    ∀ m : Modifier, status.getLsbD m.bit = (run.next conf call).down m.scancode

theorem KeyRun.next_mouse (hinv : run.Inv conf) (hsampled : run.state.sampled conf call = none)
    (hsame : SameKeyState run.state (run.state.getLWEvent conf call).2) (hkey : ∀ ke, run.event conf call ≠ some (.key ke))
    (hstatus : ∀ event status, run.event conf call = some event → event.status? = some status →
      status = (run.state.getLWEvent conf call).2.status) : KeyRun.Spec conf run call := by
  have hreport : ∀ k, run.report conf call k = none := by
    intro k
    unfold report
    cases hevent : run.event conf call with
    | none => rfl
    | some event =>
      cases event with
      | key ke => exact absurd hevent (hkey ke)
      | mouse me => rfl
      | timeout => rfl
  have hnext : run.next conf call = { run with state := (run.state.getLWEvent conf call).2 } := by
    unfold KeyRun.next
    simp only [hsampled, hreport, Option.getD_none]
  refine ⟨?_, ?_, ?_⟩
  . rw [hnext]
    refine ⟨?_, hinv.head, hinv.alternate, hinv.changes, hinv.down, ?_, ?_, ?_, ?_⟩
    . intro i hi
      rw [hsame.oldkeystate]
      exact hinv.sample i hi
    . dsimp only
      rw [hsame.olddownkey]
      exact hinv.olddownkey
    . intro m
      rw [hsame.shifts]
      exact hinv.shifts m
    . intro m
      exact (hsame.status m).trans (hinv.bits m)
    intro ke h
    obtain ⟨hlwe, heq⟩ := hsame.oldLwe ke h
    rw [heq]
    exact hinv.oldLwe ke hlwe
  . intro ke hevent
    exact absurd hevent (hkey ke)
  . intro event status hevent hst m
    rw [hstatus event status hevent hst, hsame.status m, hnext]
    exact hinv.bits m

theorem repeated_bit (status : BitVec 32) (m : Modifier)
    : (status ||| 0x800#32).getLsbD m.bit = status.getLsbD m.bit := by
  cases m with
  | _ => simp [Modifier.bit]

variable {ke : KeyEvent}

theorem KeyRun.next_again (hinv : run.Inv conf) (hsampled : run.state.sampled conf call = none)
    (hlwe : run.state.oldLwe = some (.key ke)) (hdown : ke.event = .down)
    (heq : run.state.getLWEvent conf call = (some (.key { ke with status := ke.status ||| 0x800#32 }), run.state))
    : KeyRun.Spec conf run call := by
  obtain ⟨hstatus, hheld⟩ := hinv.oldLwe ke hlwe
  have hevent : run.event conf call = some (.key { ke with status := ke.status ||| 0x800#32 }) := by
    unfold KeyRun.event
    rw [heq]
  have hreport : ∀ k, run.report conf call k = if ke.scancode = k then some true else none := by
    intro k
    unfold report
    rw [hevent]
    rw [hdown]
    rfl
  have hkept : ∀ k, (run.report conf call k).getD (run.down k) = run.down k := by
    intro k
    rw [hreport]
    split
    . next hk =>
      rw [← hk, hheld hdown]
      rfl
    . rfl
  have hnochange : ¬run.Changes conf call := by
    rintro ⟨keystate, hsome, _⟩
    rw [hsampled] at hsome
    cases hsome
  have hnext : run.next conf call = run := by
    unfold KeyRun.next
    simp only [hsampled, heq, hkept, Option.getD_none, if_neg hnochange]
    congr 1
    funext k
    split
    . rfl
    . rfl
  refine ⟨?_, ?_, ?_⟩
  . rw [hnext]
    exact hinv
  . intro ke' hke' _
    rw [hevent] at hke'
    cases hke'
    have h := hheld hdown
    rw [hinv.down] at h
    exact (Bool.and_eq_true_iff.mp h).2
  intro event status hev hst m
  rw [hevent] at hev
  cases hev
  cases hst
  rw [repeated_bit, hstatus, hnext]
  exact hinv.bits m

theorem KeyRun.not_changes (hinv : run.Inv conf)
    (hsampled : run.state.sampled conf call = some keystate)
    (hsame : ∀ k, conf.IsKey k → run.state.oldkeystate k = keystate k) : ¬run.Changes conf call := by
  rintro ⟨keystate', hsome, i, hi, hne⟩
  rw [hsampled] at hsome
  cases hsome
  exact hne ((hinv.sample i hi).symm.trans (hsame i hi))

theorem KeyRun.next_histories (hinv : run.Inv conf)
    (hsampled : run.state.sampled conf call = some keystate) (hchange : run.Changes conf call)
    (hlist : ∀ k, (conf.IsKey k ∧ run.sample k ≠ keystate k) ↔ i = k)
    (hreport : ∀ k, run.report conf call k = if i = k then some (keystate i) else none)
    : (run.next conf call).transitions = (fun k => if i = k then keystate k :: run.transitions k else run.transitions k)
      ∧ (run.next conf call).changes = (run.next conf call).transitions
      ∧ ∀ k, (run.next conf call).down k = if i = k then keystate i else run.down k := by
  have htransitions : (run.next conf call).transitions
      = fun k => if i = k then keystate k :: run.transitions k else run.transitions k := by
    funext k
    unfold KeyRun.next
    simp only [hsampled, hlist]
  have hchanges : (run.next conf call).changes = (run.next conf call).transitions := by
    rw [htransitions]
    funext k
    unfold KeyRun.next
    dsimp only
    rw [hreport, hinv.changes]
    by_cases hik : i = k
    . rw [if_pos hik, if_pos hik, hik]
      exact if_pos hchange
    . rw [if_neg hik, if_neg hik]
  have hnextDown : ∀ k, (run.next conf call).down k = if i = k then keystate i else run.down k := by
    intro k
    unfold KeyRun.next
    dsimp only
    rw [hreport]
    split
    . rfl
    . rfl
  exact ⟨htransitions, hchanges, hnextDown⟩

theorem KeyRun.next_change (hinv : run.Inv conf) (hok : run.state.KeyOk conf call) {u : EventState} (hsampled : run.state.sampled conf call = some keystate)
    (hi : conf.IsKey i) (hne : run.state.oldkeystate i ≠ keystate i) (hscancode : ke.scancode = i)
    (hreported : ke.event.report = some (keystate i)) (hstatus : ke.status = u.status)
    (hkeys : ∀ k, conf.IsKey k → u.oldkeystate k = keystate k)
    (hdown : u.olddownkey = run.state.olddownkey ∨ u.olddownkey = i)
    (hshifts : ∀ m : Modifier, m.pressed u.shifts = if i = m.scancode then keystate i else m.pressed run.state.shifts)
    (hbits : ∀ m : Modifier, u.status.getLsbD m.bit = m.pressed u.shifts) (hlwe : u.oldLwe = some (.key ke))
    (heq : run.state.getLWEvent conf call = (some (.key ke), u)) : KeyRun.Spec conf run call := by
  have hevent : run.event conf call = some (.key ke) := by
    unfold KeyRun.event
    rw [heq]
  have hothers : ∀ k, conf.IsKey k → k ≠ i → run.sample k = keystate k := by
    intro k hk hki
    by_contra hchanged
    rw [← hinv.sample k hk] at hchanged
    exact hki ((hok keystate hsampled).1 k i hk hi hchanged hne)
  have hi' : run.sample i ≠ keystate i := by
    rw [← hinv.sample i hi]
    exact hne
  have hchange : run.Changes conf call := ⟨keystate, hsampled, i, hi, hi'⟩
  have hreport : ∀ k, run.report conf call k = if i = k then some (keystate i) else none := by
    intro k
    unfold report
    rw [hevent]
    change (if ke.scancode = k then ke.event.report else none) = _
    rw [hscancode, hreported]
  have hlist : ∀ k, (conf.IsKey k ∧ run.sample k ≠ keystate k) ↔ i = k := by
    intro k
    constructor
    . rintro ⟨hk, hk'⟩
      by_contra hki
      exact hk' (hothers k hk (Ne.symm hki))
    . intro hik
      rw [← hik]
      exact ⟨hi, hi'⟩
  obtain ⟨htransitions, hchanges, hnextDown⟩ := next_histories hinv hsampled hchange hlist hreport
  have hstate : (run.next conf call).state = u := by
    unfold KeyRun.next
    rw [heq]
  have hnextSample : (run.next conf call).sample = keystate := by
    unfold KeyRun.next
    rw [hsampled]
    rfl
  have hnextShifts : ∀ m : Modifier, m.pressed u.shifts = (run.next conf call).down m.scancode := by
    intro m
    rw [hshifts, hnextDown, hinv.shifts]
  refine ⟨?_, ?_, ?_⟩
  . refine ⟨?_, ?_, ?_, hchanges, ?_, ?_, ?_, ?_, ?_⟩
    . intro k hk
      rw [hstate, hnextSample]
      exact hkeys k hk
    . intro k hk
      rw [htransitions, hnextSample]
      dsimp only
      by_cases hik : i = k
      . rw [if_pos hik]
        rfl
      . rw [if_neg hik, hinv.head k hk]
        exact hothers k hk (Ne.symm hik)
    . intro k
      rw [htransitions]
      dsimp only
      by_cases hik : i = k
      . rw [if_pos hik, ← hik]
        refine ⟨?_, hinv.alternate i⟩
        rw [hinv.head i hi]
        exact Bool.eq_not.mpr hi'.symm
      . rw [if_neg hik]
        exact hinv.alternate k
    . intro k
      rw [hnextDown, hnextSample]
      by_cases hik : i = k
      . rw [if_pos hik, ← hik, decide_eq_true hi, Bool.true_and]
      rw [if_neg hik, hinv.down k]
      by_cases hk : conf.IsKey k
      . rw [hothers k hk (Ne.symm hik)]
      . rw [decide_eq_false hk, Bool.false_and, Bool.false_and]
    . rw [hstate]
      rcases hdown with hkept | hnew
      . rw [hkept]
        exact hinv.olddownkey
      . right
        rw [hnew]
        exact hi
    . intro m
      rw [hstate]
      exact hnextShifts m
    . intro m
      rw [hstate, hbits m]
      exact hnextShifts m
    intro ke' hke'
    rw [hstate] at hke' ⊢
    rw [hlwe] at hke'
    cases hke'
    refine ⟨hstatus, ?_⟩
    intro hkind
    rw [hkind] at hreported
    rw [hnextDown, hscancode, if_pos rfl]
    exact (Option.some.inj hreported).symm
  . intro ke' _ hno
    exact absurd hchange hno
  intro event status hev hst m
  rw [hevent] at hev
  cases hev
  cases hst
  rw [hstatus, hbits m]
  exact hnextShifts m

theorem KeyRun.next_same (hinv : run.Inv conf) {keystate : Nat → Bool} {u : EventState}
    (hsampled : run.state.sampled conf call = some keystate)
    (hunchanged : ∀ k, conf.IsKey k → run.state.oldkeystate k = keystate k)
    (hkept : ∀ k, (run.report conf call k).getD (run.down k) = run.down k)
    (hkeys : ∀ k, conf.IsKey k → u.oldkeystate k = keystate k) (hdown : u.olddownkey = run.state.olddownkey)
    (hshifts : u.shifts = run.state.shifts)
    (hbits : ∀ m : Modifier, u.status.getLsbD m.bit = run.state.status.getLsbD m.bit)
    (hlwe : ∀ ke, u.oldLwe = some (.key ke) → ke.status = u.status ∧ (ke.event = .down → run.down ke.scancode = true))
    (heq : (run.state.getLWEvent conf call).2 = u)
    : (run.next conf call).Inv conf ∧ (run.next conf call).down = run.down
      ∧ (run.next conf call).changes = run.changes := by
  have hno := not_changes hinv hsampled hunchanged
  have hsample : ∀ k, conf.IsKey k → run.sample k = keystate k :=
    fun k hk => (hinv.sample k hk).symm.trans (hunchanged k hk)
  have htransitions : (run.next conf call).transitions = run.transitions := by
    funext k
    unfold KeyRun.next
    simp only [hsampled]
    exact if_neg (fun hand => hand.2 (hsample k hand.1))
  have hchanges : (run.next conf call).changes = run.changes := by
    funext k
    unfold KeyRun.next
    dsimp only
    split
    . exact if_neg hno
    . rfl
  have hnextDown : (run.next conf call).down = run.down := funext hkept
  have hnextSample : (run.next conf call).sample = keystate := by
    unfold KeyRun.next
    rw [hsampled]
    rfl
  have hstate : (run.next conf call).state = u := heq
  refine ⟨⟨?_, ?_, ?_, ?_, ?_, ?_, ?_, ?_, ?_⟩, hnextDown, hchanges⟩
  . intro k hk
    rw [hstate, hnextSample]
    exact hkeys k hk
  . intro k hk
    rw [htransitions, hnextSample, hinv.head k hk]
    exact hsample k hk
  . intro k
    rw [htransitions]
    exact hinv.alternate k
  . rw [hchanges, htransitions]
    exact hinv.changes
  . intro k
    rw [hnextDown, hnextSample, hinv.down k]
    by_cases hk : conf.IsKey k
    . rw [hsample k hk]
    . rw [decide_eq_false hk, Bool.false_and, Bool.false_and]
  . rw [hstate, hdown]
    exact hinv.olddownkey
  . intro m
    rw [hstate, hshifts, hnextDown]
    exact hinv.shifts m
  . intro m
    rw [hstate, hbits, hnextDown]
    exact hinv.bits m
  intro ke h
  rw [hstate] at h ⊢
  rw [hnextDown]
  exact hlwe ke h

theorem treatLongpress_ne_up (interval : UInt32) (l : Longpress) (now : UInt32)
    : (treatLongpress conf now interval l).1 ≠ some .up := by
  unfold treatLongpress
  dsimp only
  repeat' split
  all_goals simp

theorem KeyRun.next_sample (hinv : run.Inv conf) (hok : run.state.KeyOk conf call) {result : Option KeyEvent × EventState} (hsampled : run.state.sampled conf call = some keystate)
    (hsame : SameKeyState run.state t) (hstep : KeyStep conf t call.now keystate result)
    (heq : run.state.getLWEvent conf call = (result.1.map .key, result.2)) : KeyRun.Spec conf run call := by
  have hevent : run.event conf call = result.1.map .key := by
    unfold KeyRun.event
    rw [heq]
  have hold := hsame.oldkeystate
  cases hstep with
  | change i ke u hi hne hscancode hreported hstatus hkeys hdown hshifts hbits hlwe =>
    rw [hold] at hne
    rw [hsame.olddownkey] at hdown
    rw [hsame.shifts] at hshifts
    exact next_change hinv hok hsampled hi hne hscancode hreported hstatus hkeys hdown hshifts hbits hlwe heq
  | again ke u hunchanged hzero hscancode hdue hstatus hkeys hdown hshifts hbits hlwe =>
    rw [hold] at hunchanged
    rw [hsame.olddownkey] at hzero hscancode hdown
    rw [hsame.shifts] at hshifts
    have hpressed : keystate run.state.olddownkey = true := by
      rcases (hok keystate hsampled).2 hunchanged with h | h | h
      . exact absurd h hzero
      . exact h
      . rw [hsame.keTime, hsame.longpress, h] at hdue
        cases hdue
    have hkey : conf.IsKey run.state.olddownkey := hinv.olddownkey.resolve_left hzero
    have hdownKey : run.down run.state.olddownkey = true := by
      rw [hinv.down, decide_eq_true hkey, Bool.true_and, ← hinv.sample _ hkey, hunchanged _ hkey]
      exact hpressed
    have hkept : ∀ k, (run.report conf call k).getD (run.down k) = run.down k := by
      intro k
      have hreport : run.report conf call k = if ke.scancode = k then ke.event.report else none := by
        unfold report
        rw [hevent]
        rfl
      rw [hreport]
      split
      . next hk =>
        rw [← hk, hscancode, hdownKey]
        cases hkind : ke.event with
        | up =>
          rw [hkind] at hdue
          exact absurd hdue (treatLongpress_ne_up _ _ _)
        | down => rfl
        | longPress => rfl
        | alwaysPress => rfl
      . rfl
    have hst : ∀ m : Modifier, u.status.getLsbD m.bit = run.state.status.getLsbD m.bit := by
      intro m
      rw [hbits]
      exact hsame.status m
    obtain ⟨hinv', hdown', _⟩ := @KeyRun.next_same conf run call hinv keystate u hsampled hunchanged hkept hkeys hdown
      hshifts hst
      (by
        intro ke' h
        rw [hlwe] at h
        cases h
        exact ⟨hstatus.trans hbits.symm, fun _ => by rw [hscancode]; exact hdownKey⟩)
      (by rw [heq])
    refine ⟨hinv', ?_, ?_⟩
    . intro ke' hke' _
      rw [hevent] at hke'
      cases hke'
      rw [hscancode, ← hinv.sample _ hkey, hunchanged _ hkey]
      exact hpressed
    intro event status hev hstat m
    rw [hevent] at hev
    cases hev
    cases hstat
    rw [hstatus, hsame.status m, hdown']
    exact hinv.bits m
  | silent u hunchanged hkeys hdown hshifts hbits hlwe =>
    rw [hold] at hunchanged hkeys
    rw [hsame.olddownkey] at hdown
    rw [hsame.shifts] at hshifts
    have hkept : ∀ k, (run.report conf call k).getD (run.down k) = run.down k := by
      intro k
      unfold report
      rw [hevent]
      rfl
    obtain ⟨hinv', _, _⟩ := @KeyRun.next_same conf run call hinv keystate u hsampled hunchanged hkept
      (fun k hk => by rw [hkeys]; exact hunchanged k hk) hdown hshifts
      (fun m => by rw [hbits]; exact hsame.status m)
      (by
        intro ke h
        rw [hlwe] at h
        obtain ⟨hkept', hstatus⟩ := hsame.oldLwe ke h
        rw [hbits, hstatus]
        exact hinv.oldLwe ke hkept')
      (by rw [heq])
    refine ⟨hinv', ?_, ?_⟩
    . intro ke h
      rw [hevent] at h
      cases h
    . intro event status h
      rw [hevent] at h
      cases h

theorem KeyRun.next_spec (hinv : run.Inv conf) (hok : run.state.KeyOk conf call) : KeyRun.Spec conf run call := by
  have hcall := getLWEvent_call conf run.state call
  generalize heq : run.state.getLWEvent conf call = result at hcall
  cases hcall with
  | sample keystate t result hsampled hsame hstep => exact next_sample hinv hok hsampled hsame hstep heq
  | mouse result hsampled hsame hkey hstatus =>
    rw [← heq] at hsame hkey hstatus
    exact next_mouse hinv hsampled hsame hkey hstatus
  | again ke hsampled hlwe hdown => exact next_again hinv hsampled hlwe hdown heq

theorem KeyRun.inv_calls {calls : List LWCall} (hinv : run.Inv conf) (hok : run.Ok conf calls)
    : (calls.foldl (KeyRun.next conf) run).Inv conf := by
  induction calls generalizing run with
  | nil => exact hinv
  | cons call calls ih => exact ih (KeyRun.next_spec hinv hok.1).inv hok.2

theorem KeyRun.ok_append {before : List LWCall} {after : List LWCall} (hok : run.Ok conf (before ++ after))
    : run.Ok conf before ∧ (before.foldl (KeyRun.next conf) run).Ok conf after := by
  induction before generalizing run with
  | nil => exact ⟨trivial, hok⟩
  | cons call before ih => exact ⟨⟨hok.1, (ih hok.2).1⟩, (ih hok.2).2⟩

theorem keyRun_append (conf : EventConf) (x y : Int) (calls more : List LWCall)
    : keyRun conf x y (calls ++ more) = more.foldl (KeyRun.next conf) (keyRun conf x y calls) :=
  foldl_append

theorem KeyRun.next_constant (hcall : call.mouse = .silent ∧ call.keyboard = .sample run.sample)
    : (run.next conf call).sample = run.sample ∧ (run.next conf call).changes = run.changes := by
  have hsampled : run.state.sampled conf call = some run.sample := by
    unfold sampled
    rw [hcall.1, hcall.2]
  have hno : ¬run.Changes conf call := by
    rintro ⟨keystate, hsome, i, _, hne⟩
    rw [hsampled] at hsome
    cases hsome
    exact hne rfl
  constructor
  . unfold KeyRun.next
    rw [hsampled]
    rfl
  funext k
  unfold KeyRun.next
  dsimp only
  split
  . exact if_neg hno
  . rfl

theorem KeyRun.constant (more : List LWCall)
    (hmore : ∀ call ∈ more, call.mouse = .silent ∧ call.keyboard = .sample run.sample)
    : (more.foldl (KeyRun.next conf) run).changes = run.changes := by
  induction more generalizing run with
  | nil => rfl
  | cons call more ih =>
    obtain ⟨hsample, hchanges⟩ := @KeyRun.next_constant conf run call (hmore call mem_cons_self)
    rw [foldl_cons, ih, hchanges]
    intro c hc
    rw [hsample]
    exact hmore c (mem_cons_of_mem _ hc)

/--
A run in which one key changes at a time, and nothing is repeated that is not held.
-/
theorem keyTranslates_of_ok (conf : EventConf) (x y : Int) (calls : List LWCall)
    (hok : (KeyRun.start x y).Ok conf calls) : KeyTranslates conf x y calls := by
  have hinv : (keyRun conf x y calls).Inv conf := KeyRun.inv_calls (KeyRun.inv_start x y) hok
  have hspec : ∀ before call after, calls = before ++ call :: after → KeyRun.Spec conf (keyRun conf x y before) call := by
    intro before call after hcalls
    rw [hcalls] at hok
    obtain ⟨hbefore, hcall, _⟩ := KeyRun.ok_append hok
    exact KeyRun.next_spec (KeyRun.inv_calls (KeyRun.inv_start x y) hbefore) hcall
  refine ⟨?_, ?_, ?_, ?_⟩
  . intro k
    rw [hinv.changes]
    exact hinv.alternate k
  . intro k
    refine ⟨0, ?_⟩
    intro more hmore _
    rw [keyRun_append, KeyRun.constant more hmore, hinv.changes]
  . intro before call after ke hcalls hevent hno
    exact (hspec before call after hcalls).held ke hevent hno
  . intro before call after event status hcalls hevent hstatus m
    rw [keyRun_append]
    exact (hspec before call after hcalls).status event status hevent hstatus m

def keysDown (keys : List Nat) : Device (Nat → Bool) :=
  .sample fun i => keys.contains i

def shiftedLetter : List LWCall :=
  [⟨5, .silent, keysDown [42], false⟩, ⟨6, .silent, keysDown [42, 30], false⟩, ⟨7, .silent, keysDown [30], false⟩]

theorem one_changes {s : EventState} (k : Nat)
    (hothers : ∀ i, conf.IsKey i → i ≠ k → s.oldkeystate i = keystate i) (i j : Nat) (hi : conf.IsKey i)
    (hj : conf.IsKey j) (hi' : s.oldkeystate i ≠ keystate i) (hj' : s.oldkeystate j ≠ keystate j) : i = j := by
  have hik : i = k := by
    by_contra hne
    exact hi' (hothers i hi hne)
  have hjk : j = k := by
    by_contra hne
    exact hj' (hothers j hj hne)
  rw [hik, hjk]

theorem keyTranslates_of_ok_letter
    : (KeyRun.start 0 0).Ok (plainConf false) shiftedLetter ∧ KeyTranslates (plainConf false) 0 0 shiftedLetter := by
  have hok : (KeyRun.start 0 0).Ok (plainConf false) shiftedLetter := by
    refine ⟨?_, ?_, ?_, trivial⟩
    . intro keystate h
      cases h
      refine ⟨one_changes 42 ?_, fun h => absurd (h 42 (by decide)) (by decide)⟩
      intro i _ hne
      change false = [42].contains i
      simp [hne]
    . intro keystate h
      cases h
      refine ⟨one_changes 30 ?_, fun h => absurd (h 30 (by decide)) (by decide)⟩
      intro i hi hne
      change (if i < 128 then [42].contains i else false) = [42, 30].contains i
      have hlt : i < 128 := hi.2
      simp [hlt, hne]
    intro keystate h
    cases h
    refine ⟨one_changes 42 ?_, fun h => absurd (h 42 (by decide)) (by decide)⟩
    intro i hi hne
    change (if i < 128 then [42, 30].contains i else if i < 128 then [42].contains i else false) = [30].contains i
    have hlt : i < 128 := hi.2
    simp [hlt, hne]
  exact ⟨hok, keyTranslates_of_ok (plainConf false) 0 0 shiftedLetter hok⟩

theorem not_keyTranslates_two : ¬KeyTranslates (plainConf true) 0 0 [⟨5, .silent, keysDown [30, 48], false⟩] := by
  intro h
  obtain ⟨rounds, hrounds⟩ := h.reported 48
  have hsame := hrounds (replicate rounds ⟨6, .silent, keysDown [30, 48], false⟩) (by
    intro call hcall
    rw [eq_of_mem_replicate hcall]
    exact ⟨rfl, rfl⟩) (by rw [length_replicate])
  rw [keyRun_append, KeyRun.constant] at hsame
  . have htwo : (keyRun (plainConf true) 0 0 [⟨5, .silent, keysDown [30, 48], false⟩]).transitions 48 = [true] := by
      change (if (plainConf true).IsKey 48 ∧ false ≠ [30, 48].contains 48 then [[30, 48].contains 48] else []) = [true]
      exact if_pos (by decide)
    have hnone : (keyRun (plainConf true) 0 0 [⟨5, .silent, keysDown [30, 48], false⟩]).changes 48 = [] := rfl
    rw [htwo, hnone] at hsame
    cases hsame
  . intro call hcall
    rw [eq_of_mem_replicate hcall]
    exact ⟨rfl, rfl⟩

end Runs

end MiniGui
