import Mathlib

namespace MiniGui

structure DlgWin where
  /-- `DataType` is `TYPE_HWND` -/
  alive : Bool
  pHosting : Option Nat
  hOwner : Option Nat
  /-- `WS_DISABLED` -/
  disabled : Bool
  /-- `WS_EX_MODALDISABLED` -/
  modalDisabled : Bool
  /-- `dwAddData2` points to the code that the dialog returns -/
  modal : Bool
  /-- the answer to `MSG_ISDIALOG` -/
  isDialog : Bool
deriving DecidableEq

structure DlgWorld where
  count : Nat
  win : Nat → DlgWin
  fresh : ∀ i, count ≤ i → (win i).alive = false
  older : ∀ i p, (win i).alive = true → (win i).pHosting = some p → p < i
  hosts : ∀ i w, (win i).hOwner = some w → (win i).pHosting = some w

namespace DlgWorld

def setWin (s : DlgWorld) (h : Nat) (win : DlgWin) (halive : win.alive = true → (s.win h).alive = true)
    (hhosting : win.pHosting = (s.win h).pHosting) (howner : win.hOwner = (s.win h).hOwner) : DlgWorld where
  count := s.count
  win := fun i => if i = h then win else s.win i
  fresh := by
    intro i hi
    have hfresh := s.fresh i hi
    split
    . rename_i heq
      rw [heq] at hfresh
      rw [← Bool.not_eq_true] at hfresh ⊢
      exact fun hwin => hfresh (halive hwin)
    . exact hfresh
  older := by
    intro i p
    split
    . rename_i heq
      rw [heq, hhosting]
      exact fun hwin => s.older h p (halive hwin)
    . exact s.older i p
  hosts := by
    intro i w
    split
    . rw [hhosting, howner]
      exact s.hosts h w
    . exact s.hosts i w

def enableWindow (s : DlgWorld) (h : Nat) (fEnable : Bool) : DlgWorld :=
  if (s.win h).alive then s.setWin h { s.win h with disabled := !fEnable } id rfl rfl else s

def setModalDisabled (s : DlgWorld) (h : Nat) (value : Bool) : DlgWorld :=
  if (s.win h).alive then s.setWin h { s.win h with modalDisabled := value } id rfl rfl else s

def kill (s : DlgWorld) (h : Nat) : DlgWorld :=
  s.setWin h { s.win h with alive := false } (fun hwin => nomatch hwin) rfl rfl

def hosted (s : DlgWorld) (h : Nat) : List Nat :=
  (List.range s.count).filter fun c => (s.win c).alive && (s.win c).pHosting = some h

def disableOwner (s : DlgWorld) (hOwner : Option Nat) : DlgWorld :=
  match hOwner with
  | none => s
  | some w =>
    if (s.win w).alive && !(s.win w).disabled then
      (s.enableWindow w false).setModalDisabled w true
    else
      s

def enableOwner (s : DlgWorld) (hOwner : Option Nat) : DlgWorld :=
  match hOwner with
  | none => s
  | some w =>
    if (s.win w).alive && (s.win w).modalDisabled then
      (s.enableWindow w true).setModalDisabled w false
    else
      s

def endDialogBy (destroy : DlgWorld → Nat → Option DlgWorld) (s : DlgWorld) (h : Nat) : Option DlgWorld :=
  if (s.win h).alive && (s.win h).modal then
    (destroy s h).map fun s' => s'.enableOwner (s.win h).pHosting
  else
    some s

/--
`DestroyMainWindow`, where `refuses` are the windows that do not take `MSG_DESTROY`. No result means that there
are not enough rounds.
-/
def destroyMainWindow (refuses : Nat → Bool) : Nat → DlgWorld → Nat → Option DlgWorld
  | 0, _, _ => none
  | rounds + 1, s, h =>
    if (s.win h).alive = false then
      some s
    else if refuses h then
      some s
    else
      ((s.hosted h).foldlM (fun (s : DlgWorld) head =>
        if (s.win head).isDialog then
          endDialogBy (destroyMainWindow refuses rounds) s head
        else
          destroyMainWindow refuses rounds s head) s).map fun (s : DlgWorld) => s.kill h

def endDialog (refuses : Nat → Bool) (s : DlgWorld) (h : Nat) : Option DlgWorld :=
  endDialogBy (destroyMainWindow refuses (s.count + 1)) s h

structure Styles where
  disabled : Bool
  modalDisabled : Bool
  isDialog : Bool

def addWin (s : DlgWorld) (styles : Styles) (hOwner pHosting : Option Nat) (modal : Bool)
    (hhosting : ∀ p, pHosting = some p → p < s.count) (howner : ∀ w, hOwner = some w → pHosting = some w) : DlgWorld where
  count := s.count + 1
  win := fun i =>
    if i = s.count then ⟨true, pHosting, hOwner, styles.disabled, styles.modalDisabled, modal, styles.isDialog⟩ else s.win i
  fresh := by
    intro i hi
    rw [if_neg (by omega)]
    exact s.fresh i (by omega)
  older := by
    intro i p
    split
    . rename_i heq
      rw [heq]
      exact fun _ => hhosting p
    . exact s.older i p
  hosts := by
    intro i w
    split
    . exact howner w
    . exact s.hosts i w

def getMainWindow (s : DlgWorld) (h : Option Nat) : Option Nat :=
  h.filter fun w => (s.win w).alive

/--
The hosting of a new window. `root` is the first window of the thread, which hosts the windows that
have the desktop for their hosting. There is none where MiniGUI runs in processes.
-/
def newHosting (s : DlgWorld) (hHosting root : Option Nat) : Option Nat :=
  match s.getMainWindow hHosting with
  | some w => some w
  | none => root.filter fun r => r < s.count

variable {w : Nat} {s : DlgWorld}

theorem getMainWindow_alive {h : Option Nat} (hw : s.getMainWindow h = some w)
    : (s.win w).alive = true := by
  unfold getMainWindow at hw
  rw [Option.filter_eq_some_iff] at hw
  exact hw.2

theorem alive_lt {i : Nat} (h : (s.win i).alive = true) : i < s.count := by
  by_contra hnot
  rw [s.fresh i (by omega)] at h
  cases h

theorem newHosting_lt {hHosting root : Option Nat} {p : Nat} (h : s.newHosting hHosting root = some p)
    : p < s.count := by
  unfold newHosting at h
  split at h
  . rename_i w hw
    cases h
    exact alive_lt (getMainWindow_alive hw)
  . rw [Option.filter_eq_some_iff] at h
    exact of_decide_eq_true h.2

theorem newHosting_owner {hHosting root : Option Nat} (h : s.getMainWindow hHosting = some w)
    : s.newHosting hHosting root = some w := by
  unfold newHosting
  rw [h]

def createMainWindow (s : DlgWorld) (styles : Styles) (hHosting root : Option Nat) : DlgWorld :=
  s.addWin styles none (s.newHosting hHosting root) false (fun _ h => newHosting_lt h) (fun _ h => nomatch h)

def dialogBoxIndirectParam (s : DlgWorld) (styles : Styles) (hOwner root : Option Nat) : DlgWorld :=
  (s.addWin styles (s.getMainWindow hOwner) (s.newHosting hOwner root) true (fun _ h => newHosting_lt h)
    (fun _ h => newHosting_owner h)).disableOwner (s.getMainWindow hOwner)

end DlgWorld

inductive DlgAction where
  | dialogBox (styles : DlgWorld.Styles) (hOwner root : Option Nat)
  | endDialog (refuses : Nat → Bool) (h : Nat)
  | createMainWindow (styles : DlgWorld.Styles) (hHosting root : Option Nat)
  | destroyMainWindow (refuses : Nat → Bool) (h : Nat)
  | enableWindow (h : Nat) (fEnable : Bool)

def DlgWorld.HasDialog (s : DlgWorld) (w : Nat) : Prop :=
  ∃ d < s.count, (s.win d).alive = true ∧ (s.win d).modal = true ∧ (s.win d).hOwner = some w

instance (s : DlgWorld) (w : Nat) : Decidable (s.HasDialog w) :=
  inferInstanceAs (Decidable (∃ d < s.count, _))

structure DlgState where
  world : DlgWorld
  asked : Nat → Bool

def DlgState.next (σ : DlgState) : DlgAction → Option DlgState
  | .dialogBox styles hOwner root =>
    some ⟨σ.world.dialogBoxIndirectParam styles hOwner root,
      fun i => if i = σ.world.count then styles.disabled else σ.asked i⟩
  | .endDialog refuses h => (σ.world.endDialog refuses h).map fun s => ⟨s, σ.asked⟩
  | .createMainWindow styles hHosting root =>
    some ⟨σ.world.createMainWindow styles hHosting root, fun i => if i = σ.world.count then styles.disabled else σ.asked i⟩
  | .destroyMainWindow refuses h =>
    if (σ.world.win h).modal then
      some σ
    else
      (σ.world.destroyMainWindow refuses (σ.world.count + 1) h).map fun s => ⟨s, σ.asked⟩
  | .enableWindow h fEnable =>
    if σ.world.HasDialog h then
      some σ
    else
      some ⟨σ.world.enableWindow h fEnable, fun i => if i = h then !fEnable else σ.asked i⟩

def DlgState.Owned (σ : DlgState) : Prop :=
  ∀ w, (σ.world.win w).alive = true →
    ((σ.world.win w).disabled = true ↔ σ.asked w = true ∨ σ.world.HasDialog w)
      ∧ ((σ.world.win w).modalDisabled = true ↔ σ.asked w = false ∧ σ.world.HasDialog w)

def DlgState.StepOk (σ : DlgState) : DlgAction → Prop
  | .dialogBox styles _ _ => styles.modalDisabled = false
  | .createMainWindow styles _ _ => styles.modalDisabled = false
  | .endDialog refuses h =>
    ∀ w, (σ.world.win h).alive = true → (σ.world.win h).modal = true → (σ.world.win h).pHosting = some w →
      (σ.world.win w).alive = true → (σ.world.win w).modalDisabled = true →
        refuses h = false
          ∧ ∀ d, (σ.world.win d).alive = true → (σ.world.win d).modal = true → (σ.world.win d).hOwner = some w → d = h
  | _ => True

def DlgState.Always (p : DlgState → Prop) : DlgState → List DlgAction → Prop
  | σ, [] => p σ
  | σ, action :: actions => p σ ∧ ∃ σ', σ.next action = some σ' ∧ Always p σ' actions

def DlgState.StepsOk : DlgState → List DlgAction → Prop
  | _, [] => True
  | σ, action :: actions => σ.StepOk action ∧ ∀ σ', σ.next action = some σ' → StepsOk σ' actions

structure NoDialogs extends DlgWorld where
  noModal : ∀ i, (win i).modal = false
  unmarked : ∀ i, (win i).modalDisabled = false

def NoDialogs.start (s : NoDialogs) : DlgState :=
  ⟨s.toDlgWorld, fun i => (s.win i).disabled⟩

end MiniGui
