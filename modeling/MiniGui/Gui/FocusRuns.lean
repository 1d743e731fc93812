import MiniGui.Gui.Focus

namespace MiniGui

namespace FocusWorld

section Focus

variable {s s' : FocusWorld} {h p x : Nat} {sent : Sent}

theorem Raised.ptrsOk (hraised : Raised s h s' sent) (hok : s.PtrsOk)
    (halive : ∀ x, s.Above h x → s.alive x = true) : s'.PtrsOk := by
  intro w hw k c hc
  rw [hraised.same.alive] at hw ⊢
  rw [hraised.same.pParent]
  by_cases hk : k = .active
  . rw [hk] at hc
    by_cases hpath : ∃ x, s.Above h x ∧ s.pParent x = some w
    . obtain ⟨x, hx, hxw⟩ := hpath
      rw [hraised.reaches x w hx hxw] at hc
      have heq := Option.some.inj hc
      rw [← heq]
      exact ⟨halive x hx, hxw⟩
    . rw [hraised.frame w (fun x hx hxw => hpath ⟨x, hx, hxw⟩)] at hc
      exact hok w hw .active c hc
  . rw [hraised.same.ptr k hk] at hc
    exact hok w hw k c hc

theorem Raised.focused (hraised : Raised s h s' sent) (hactive : s.ptr .active p = some h)
    : Focused s h p s' sent (.hwnd (some h)) where
  reaches := hraised.reaches
  killed := by
    intro o
    rcases hraised.killed o with ⟨hcount, hexists⟩ | ⟨hcount, hnone⟩
    . exact ⟨by omega, fun _ => hexists, fun _ => hcount⟩
    . exact ⟨by omega, fun hone => by omega, fun hexists => absurd hexists hnone⟩
  set := by
    intro n
    rcases hraised.set n with ⟨hcount, hexists⟩ | ⟨hcount, hnone⟩
    . exact ⟨by omega, fun _ => hexists, fun _ => hcount⟩
    . exact ⟨by omega, fun hone => by omega, fun hexists => absurd hexists hnone⟩
  ret := by
    rw [hactive]

theorem setFocusHelper_dead (hp : s.pParent h = some p) (hdead : s.alive p = false) : s.setFocusHelper h = none := by
  unfold setFocusHelper
  rw [hp]
  dsimp only
  rw [hdead]
  rfl

theorem focusLoop_alive {rounds : Nat} {result : FocusWorld × Sent} (hloop : s.focusLoop rounds h = some result)
    (hx : s.Above h x) (hne : x ≠ h) : s.alive x = true := by
  induction rounds generalizing s h result with
  | zero => cases hloop
  | succ rounds ih =>
    cases hp : s.pParent h with
    | none => exact absurd (above_root hp hx) hne
    | some p =>
      unfold focusLoop at hloop
      cases hpAlive : s.alive p with
      | false =>
        rw [setFocusHelper_dead hp hpAlive] at hloop
        cases hloop
      | true =>
        obtain ⟨s₁, sent, hhelp, hspec⟩ := setFocusHelper_spec hp hpAlive
        have hparent : s₁.pParent h = some p := by
          rw [hspec.same.pParent, hp]
        rw [hhelp, Option.bind_some] at hloop
        dsimp only at hloop
        rw [hparent] at hloop
        obtain ⟨rest, hrest, -⟩ := Option.map_eq_some_iff.mp hloop
        rcases (above_iff hp).mp hx with heq | hxp
        . exact absurd heq hne
        by_cases hxeq : x = p
        . rw [hxeq, hpAlive]
        . rw [← hspec.same.alive]
          exact ih hrest ((Above.congr hspec.same.pParent).mpr hxp) hxeq

variable {result : FocusWorld × Sent × FocusRet}

theorem setFocusChild_focusLoop (hset : s.setFocusChild h = some result)
    (hh : s.alive h = true) : s.focusLoop (h + 2) h = some (result.1, result.2.1) := by
  unfold setFocusChild at hset
  rw [if_pos hh] at hset
  obtain ⟨⟨s₁, sent, ret⟩, hhelp, hset⟩ := Option.bind_eq_some_iff.mp hset
  unfold focusLoop
  rw [hhelp, Option.bind_some]
  dsimp only at hset ⊢
  split at hset
  . obtain ⟨rest, hrest, rfl⟩ := Option.map_eq_some_iff.mp hset
    rw [hrest, Option.map_some]
  . cases hset
    rfl

theorem setFocusChild_alive (hset : s.setFocusChild h = some result)
    (hh : s.alive h = true) (hx : s.Above h x) : s.alive x = true := by
  by_cases hne : x = h
  . rw [hne, hh]
  . exact focusLoop_alive (setFocusChild_focusLoop hset hh) hx hne

theorem setFocusChild_invalid (hinvalid : ∀ p, s.alive h = true → s.pParent h ≠ some p)
    : s.setFocusChild h = some (s, [], .invalid) := by
  unfold setFocusChild
  cases hh : s.alive h with
  | false => rfl
  | true =>
    cases hp : s.pParent h with
    | none =>
      unfold setFocusHelper
      rw [hp]
      rfl
    | some p => exact absurd hp (hinvalid p hh)

theorem setFocusChild_ptrsOk (hset : s.setFocusChild h = some result) (hok : s.PtrsOk)
    : result.1.PtrsOk := by
  by_cases hcontrol : ∃ p, s.alive h = true ∧ s.pParent h = some p
  . obtain ⟨p, hh, hp⟩ := hcontrol
    have halive : ∀ x, s.Above h x → s.alive x = true := fun x hx => setFocusChild_alive hset hh hx
    obtain ⟨s', sent, heq, hraised⟩ := setFocusChild_spec hok hp halive
    rw [hset] at heq
    cases heq
    exact hraised.ptrsOk hok halive
  . rw [setFocusChild_invalid (fun p hh hp => hcontrol ⟨p, hh, hp⟩)] at hset
    cases hset
    exact hok

end Focus

structure Destroyed (s : FocusWorld) (low : Nat) (t : FocusWorld) : Prop where
  count : t.count = s.count
  pParent : t.pParent = s.pParent
  below : ∀ i, i < low → t.alive i = s.alive i
  ptrsOk : s.PtrsOk → t.PtrsOk

variable {c : Nat}

section Destroy

variable {s t u : FocusWorld} {h low p rounds : Nat} {refuses : Nat → Bool} {l : List Nat}

theorem Destroyed.refl : Destroyed s low s :=
  ⟨rfl, rfl, fun _ _ => rfl, fun hok => hok⟩

theorem Destroyed.trans (h1 : Destroyed s low t) (h2 : Destroyed t low u) : Destroyed s low u where
  count := by
    rw [h2.count, h1.count]
  pParent := by
    rw [h2.pParent, h1.pParent]
  below := by
    intro i hi
    rw [h2.below i hi, h1.below i hi]
  ptrsOk := fun hok => h2.ptrsOk (h1.ptrsOk hok)

theorem Destroyed.mono {low' : Nat} (h1 : Destroyed s low t) (hle : low' ≤ low) : Destroyed s low' t where
  count := h1.count
  pParent := h1.pParent
  below := fun i hi => h1.below i (by omega)
  ptrsOk := h1.ptrsOk

theorem destroyed_free (hp : s.pParent h = some p) : Destroyed s h (s.free p h) where
  count := rfl
  pParent := rfl
  below := by
    intro i hi
    exact if_neg (by omega)
  ptrsOk := by
    intro hok w hw k c hc
    have hwh : w ≠ h := by
      rintro rfl
      rw [show (s.free p w).alive w = false from if_pos rfl] at hw
      cases hw
    rw [show (s.free p h).alive w = s.alive w from if_neg hwh] at hw
    by_cases hcleared : w = p ∧ s.ptr k w = some h
    . rw [show (s.free p h).ptr k w = none from if_pos hcleared] at hc
      cases hc
    rw [show (s.free p h).ptr k w = s.ptr k w from if_neg hcleared] at hc
    obtain ⟨hcAlive, hcParent⟩ := hok w hw k c hc
    -- only the parent points to the control
    have hch : c ≠ h := by
      rintro rfl
      rw [hp] at hcParent
      cases hcParent
      exact hcleared ⟨rfl, hc⟩
    exact ⟨by rw [show (s.free p h).alive c = s.alive c from if_neg hch, hcAlive], hcParent⟩

theorem mem_children : c ∈ s.children h ↔ c < s.count ∧ s.alive c = true ∧ s.pParent c = some h := by
  unfold children
  rw [List.mem_filter, List.mem_range, Bool.and_eq_true, decide_eq_true_eq]

theorem foldlM_destroyed (hstep : ∀ {s t : FocusWorld} {c : Nat}, s.destroyWindow refuses rounds c = some t
    → Destroyed s c t) (hlow : ∀ c ∈ l, low ≤ c)
    (hfold : l.foldlM (destroyWindow refuses rounds) s = some t) : Destroyed s low t := by
  induction l generalizing s with
  | nil =>
    cases hfold
    exact .refl
  | cons c l ih =>
    rw [List.foldlM_cons] at hfold
    obtain ⟨s₁, h1, h2⟩ := Option.bind_eq_some_iff.mp hfold
    have hc := (hstep h1).mono (hlow c List.mem_cons_self)
    exact hc.trans (ih (fun c' hc' => hlow c' (List.mem_cons_of_mem c hc')) h2)

theorem destroyWindow_destroyed (hdestroy : s.destroyWindow refuses rounds h = some t) : Destroyed s h t := by
  induction rounds generalizing s t h with
  | zero => cases hdestroy
  | succ rounds ih =>
    unfold destroyWindow at hdestroy
    split at hdestroy
    . rename_i hAlive hp
      split at hdestroy
      . cases hdestroy
        exact .refl
      obtain ⟨s₁, hfold, hfree⟩ := Option.bind_eq_some_iff.mp hdestroy
      have hchildren : Destroyed s h s₁ := by
        refine foldlM_destroyed ih ?_ hfold
        intro c hc
        have hlt := s.older c h (mem_children.mp hc).2.2
        omega
      split at hfree
      . cases hfree
        refine hchildren.trans (destroyed_free ?_)
        rw [hchildren.pParent, hp]
      . cases hfree
    . cases hdestroy
      exact .refl

theorem foldlM_total (hstep : ∀ {s : FocusWorld} {c : Nat}, s.count < rounds + c → c < s.count
      → (∀ p, s.alive c = true → s.pParent c = some p → refuses c = false → s.alive p = true)
      → ∃ t, s.destroyWindow refuses rounds c = some t)
    (hcount : s.count ≤ rounds + h) (hh : s.alive h = true) (hl : ∀ c ∈ l, c < s.count ∧ s.pParent c = some h)
    : ∃ t, l.foldlM (destroyWindow refuses rounds) s = some t := by
  induction l generalizing s with
  | nil => exact ⟨s, rfl⟩
  | cons c l ih =>
    obtain ⟨hlt, hp⟩ := hl c List.mem_cons_self
    have holder := s.older c h hp
    have hparent : ∀ p, s.alive c = true → s.pParent c = some p → refuses c = false → s.alive p = true := by
      intro p _ hp' _
      rw [hp] at hp'
      cases hp'
      exact hh
    obtain ⟨s₁, h1⟩ := hstep (by omega) hlt hparent
    have hspec := destroyWindow_destroyed h1
    rw [List.foldlM_cons, h1]
    apply ih
    . rw [hspec.count]
      exact hcount
    . rw [hspec.below h holder, hh]
    . intro c' hc'
      rw [hspec.count, hspec.pParent]
      exact hl c' (List.mem_cons_of_mem c hc')

theorem destroyWindow_total (hcount : s.count < rounds + h) (hlt : h < s.count)
    (hparent : ∀ p, s.alive h = true → s.pParent h = some p → refuses h = false → s.alive p = true)
    : ∃ t, s.destroyWindow refuses rounds h = some t := by
  induction rounds generalizing s h with
  | zero => omega
  | succ rounds ih =>
    unfold destroyWindow
    split
    . rename_i p hAlive hp
      split
      . exact ⟨s, rfl⟩
      rename_i hrefuses
      have hpAlive := hparent p hAlive hp (Bool.eq_false_iff.mpr hrefuses)
      obtain ⟨s₁, hfold⟩ := foldlM_total ih (by omega) hAlive (fun c hc => ⟨(mem_children.mp hc).1,
        (mem_children.mp hc).2.2⟩)
      have hspec : Destroyed s h s₁ := by
        refine foldlM_destroyed destroyWindow_destroyed ?_ hfold
        intro c hc
        have holder := s.older c h (mem_children.mp hc).2.2
        omega
      rw [hfold, Option.bind_some, hspec.below p (s.older h p hp), if_pos hpAlive]
      exact ⟨_, rfl⟩
    . exact ⟨s, rfl⟩

theorem destroyWindow_iff : (∃ t, s.destroyWindow refuses (s.count + 1) h = some t)
      ↔ ∀ p, s.alive h = true → s.pParent h = some p → refuses h = false → s.alive p = true := by
  constructor
  . rintro ⟨t, hdestroy⟩ p hAlive hp hrefuses
    unfold destroyWindow at hdestroy
    rw [hAlive, hp] at hdestroy
    rw [hrefuses] at hdestroy
    obtain ⟨s₁, hfold, hfree⟩ := Option.bind_eq_some_iff.mp hdestroy
    have hspec : Destroyed s h s₁ := by
      refine foldlM_destroyed destroyWindow_destroyed ?_ hfold
      intro c hc
      have holder := s.older c h (mem_children.mp hc).2.2
      omega
    split at hfree
    . rename_i hpAlive
      rw [← hspec.below p (s.older h p hp), hpAlive]
    . cases hfree
  intro hparent
  by_cases hlt : h < s.count
  . exact destroyWindow_total (by omega) hlt hparent
  . unfold destroyWindow
    rw [s.fresh h (by omega)]
    exact ⟨s, rfl⟩

end Destroy

section Run

variable {s s' : FocusWorld} {call : FocusCall} {calls : List FocusCall} (hok : s.PtrsOk)
include hok

theorem addWindow_ptrsOk {parent : Option Nat} {hparent : ∀ p, parent = some p → p < s.count}
    : (s.addWindow parent hparent).PtrsOk := by
  intro w hw k c hc
  by_cases hnew : w = s.count
  . rw [show (s.addWindow parent hparent).ptr k w = none from if_pos hnew] at hc
    cases hc
  rw [show (s.addWindow parent hparent).ptr k w = s.ptr k w from if_neg hnew] at hc
  rw [show (s.addWindow parent hparent).alive w = s.alive w from if_neg hnew] at hw
  obtain ⟨hcAlive, hcParent⟩ := hok w hw k c hc
  have hlt := lt_count hcAlive
  have hne : c ≠ s.count := by omega
  constructor
  . rw [show (s.addWindow parent hparent).alive c = s.alive c from if_neg hne, hcAlive]
  . rw [show (s.addWindow parent hparent).pParent c = s.pParent c from if_neg hne, hcParent]

theorem setPtr_none_ptrsOk {k : ChildPtr} {w : Nat} : (s.setPtr k w none).PtrsOk := by
  intro w' hw' k' c hc
  by_cases hset : k' = k ∧ w' = w
  . rw [show (s.setPtr k w none).ptr k' w' = none from if_pos hset] at hc
    cases hc
  . rw [show (s.setPtr k w none).ptr k' w' = s.ptr k' w' from if_neg hset] at hc
    exact hok w' hw' k' c hc

theorem next_ptrsOk (hnext : s.next call = some s') : s'.PtrsOk := by
  cases call with
  | createWindowEx hParentWnd =>
    cases hnext
    unfold createWindowEx
    split
    . exact addWindow_ptrsOk hok
    . exact hok
  | setFocusChild hWnd =>
    obtain ⟨result, hset, rfl⟩ := Option.map_eq_some_iff.mp hnext
    exact setFocusChild_ptrsOk hset hok
  | setNullFocus hParent =>
    cases hnext
    unfold setNullFocus
    split
    . exact setPtr_none_ptrsOk hok
    . exact hok
  | destroyWindow refuses hWnd => exact (destroyWindow_destroyed hnext).ptrsOk hok

theorem setFocusChild_ok
    : (s.Answers (.setFocusChild c) ∧ ∃ s', s.next (.setFocusChild c) = some s') ↔ s.CallOk (.setFocusChild c) := by
  constructor
  . rintro ⟨hanswers, -⟩ p hc hp
    obtain ⟨s', sent, ret, hset, hfocused⟩ := hanswers p hc hp
    have halive : ∀ x, s.Above c x → s.alive x = true := fun x hx => setFocusChild_alive hset hc hx
    refine ⟨?_, halive⟩
    -- the result is the control itself
    obtain ⟨_, _, heq, -⟩ := setFocusChild_spec hok hp halive
    rw [hset] at heq
    cases heq
    have hret := hfocused.ret
    injection hret with hactive
    exact hactive.symm
  intro hcall
  by_cases hcontrol : ∃ p, s.alive c = true ∧ s.pParent c = some p
  . obtain ⟨p, hc, hp⟩ := hcontrol
    obtain ⟨hactive, halive⟩ := hcall p hc hp
    obtain ⟨s', sent, hset, hraised⟩ := setFocusChild_spec hok hp halive
    constructor
    . intro p' _ hp'
      rw [hp] at hp'
      cases hp'
      exact ⟨s', sent, _, hset, hraised.focused hactive⟩
    refine ⟨s', ?_⟩
    show (s.setFocusChild c).map Prod.fst = some s'
    rw [hset]
    rfl
  constructor
  . intro p hc hp
    exact absurd ⟨p, hc, hp⟩ hcontrol
  refine ⟨s, ?_⟩
  show (s.setFocusChild c).map Prod.fst = some s
  rw [setFocusChild_invalid (fun p hc hp => hcontrol ⟨p, hc, hp⟩)]
  rfl

theorem call_ok : (s.Answers call ∧ ∃ s', s.next call = some s') ↔ s.CallOk call := by
  cases call with
  | createWindowEx hParentWnd | setNullFocus hParent => exact ⟨fun _ => trivial, fun _ => ⟨trivial, _, rfl⟩⟩
  | setFocusChild c => exact setFocusChild_ok hok
  | destroyWindow refuses hWnd => exact ⟨fun hand => destroyWindow_iff.mp hand.2,
    fun hcall => ⟨trivial, destroyWindow_iff.mpr hcall⟩⟩

theorem always_iff : s.AlwaysFocused calls ↔ s.CallsOk calls := by
  induction calls generalizing s with
  | nil => exact ⟨fun _ => trivial, fun _ => hok⟩
  | cons call calls ih =>
    constructor
    . rintro ⟨-, hanswers, s', hnext, hrest⟩
      refine ⟨(call_ok hok).mp ⟨hanswers, s', hnext⟩, ?_⟩
      intro s'' hnext'
      rw [hnext] at hnext'
      cases hnext'
      exact (ih (next_ptrsOk hok hnext)).mp hrest
    . rintro ⟨hcall, hrest⟩
      obtain ⟨hanswers, s', hnext⟩ := (call_ok hok).mpr hcall
      exact ⟨hok, hanswers, s', hnext, (ih (next_ptrsOk hok hnext)).mpr (hrest s' hnext)⟩

end Run

end FocusWorld

structure FocusTree extends FocusWorld where
  ptrsOk : toFocusWorld.PtrsOk

namespace FocusTree

theorem alwaysFocused_iff (s : FocusTree) (calls : List FocusCall)
    : s.toFocusWorld.AlwaysFocused calls ↔ s.toFocusWorld.CallsOk calls :=
  FocusWorld.always_iff s.ptrsOk

def mainWindow : FocusTree where
  count := 1
  alive := fun i => i == 0
  pParent := fun _ => none
  ptr := fun _ _ => none
  fresh := by
    intro i hi
    exact beq_false_of_ne (by omega)
  older := by
    intro i p hp
    cases hp
  ptrsOk := by
    intro w _ k c hc
    cases hc

theorem not_alwaysFocused_first : ¬mainWindow.toFocusWorld.AlwaysFocused [.createWindowEx 0, .setFocusChild 1] := by
  rw [FocusWorld.always_iff mainWindow.ptrsOk]
  rintro ⟨-, hrest⟩
  obtain ⟨hcall, -⟩ := hrest _ rfl
  obtain ⟨hactive, -⟩ := hcall 0 rfl rfl
  cases hactive

end FocusTree

end MiniGui
