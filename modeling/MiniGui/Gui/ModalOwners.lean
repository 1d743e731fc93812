import MiniGui.Gui.Dialog

namespace MiniGui

variable {h w : Nat} {refuses : Nat → Bool} {styles : Styles}

namespace DlgWorld

section Windows

variable (s : DlgWorld)

theorem setWin_win {win : DlgWin} (halive hhosting howner) (i : Nat)
    : (s.setWin h win halive hhosting howner).win i = if i = h then win else s.win i := rfl

theorem enableWindow_win (h : Nat) (fEnable : Bool) (i : Nat) : (s.enableWindow h fEnable).win i
        = if i = h ∧ (s.win h).alive = true then { s.win i with disabled := !fEnable } else s.win i := by
  unfold enableWindow
  split
  . rename_i halive
    rw [setWin_win]
    by_cases hi : i = h
    . rw [if_pos hi, if_pos ⟨hi, halive⟩, hi]
    . rw [if_neg hi, if_neg (fun hand => hi hand.1)]
  . rename_i halive
    rw [if_neg (fun hand => halive hand.2)]

theorem setModalDisabled_win (h : Nat) (value : Bool) (i : Nat) : (s.setModalDisabled h value).win i
        = if i = h ∧ (s.win h).alive = true then { s.win i with modalDisabled := value } else s.win i := by
  unfold setModalDisabled
  split
  . rename_i halive
    rw [setWin_win]
    by_cases hi : i = h
    . rw [if_pos hi, if_pos ⟨hi, halive⟩, hi]
    . rw [if_neg hi, if_neg (fun hand => hi hand.1)]
  . rename_i halive
    rw [if_neg (fun hand => halive hand.2)]

theorem kill_win (h i : Nat) : (s.kill h).win i = if i = h then { s.win h with alive := false } else s.win i := rfl

@[simp]
theorem enableWindow_count (h : Nat) (fEnable : Bool) : (s.enableWindow h fEnable).count = s.count := by
  unfold enableWindow
  split <;> rfl

@[simp]
theorem setModalDisabled_count (h : Nat) (value : Bool) : (s.setModalDisabled h value).count = s.count := by
  unfold setModalDisabled
  split <;> rfl

@[simp]
theorem enableOwner_count (hOwner : Option Nat) : (s.enableOwner hOwner).count = s.count := by
  unfold enableOwner
  split
  . rfl
  . split
    . rw [setModalDisabled_count, enableWindow_count]
    . rfl

theorem enableMark_win (halive : (s.win w).alive = true) (fEnable mark : Bool) (i : Nat)
    : ((s.enableWindow w fEnable).setModalDisabled w mark).win i
        = if i = w then { s.win i with disabled := !fEnable, modalDisabled := mark } else s.win i := by
  have hstill : ((s.enableWindow w fEnable).win w).alive = true := by
    rw [enableWindow_win, if_pos ⟨rfl, halive⟩]
    exact halive
  rw [setModalDisabled_win]
  by_cases hi : i = w
  . rw [hi, if_pos ⟨rfl, hstill⟩, enableWindow_win, if_pos ⟨rfl, halive⟩, if_pos rfl]
  . rw [if_neg (fun hand => hi hand.1), enableWindow_win, if_neg (fun hand => hi hand.1), if_neg hi]

theorem disableOwner_win (hOwner : Option Nat) (i : Nat) : (s.disableOwner hOwner).win i
        = if hOwner = some i ∧ (s.win i).alive = true ∧ (s.win i).disabled = false then
            { s.win i with disabled := true, modalDisabled := true }
          else
            s.win i := by
  unfold disableOwner
  cases hOwner with
  | none => rw [if_neg (fun hand => Option.some_ne_none i hand.1.symm)]
  | some w =>
    dsimp only
    by_cases henabled : ((s.win w).alive && !(s.win w).disabled) = true
    . obtain ⟨halive, hdisabled⟩ := Bool.and_eq_true_iff.mp henabled
      rw [Bool.not_eq_true'] at hdisabled
      rw [if_pos henabled, enableMark_win s halive]
      by_cases hi : i = w
      . rw [hi, if_pos rfl, if_pos ⟨rfl, halive, hdisabled⟩]
        rfl
      . have hne : some w ≠ some i := fun heq => hi (Option.some.inj heq).symm
        rw [if_neg hi, if_neg (fun hand => hne hand.1)]
    rw [if_neg henabled, if_neg]
    rintro ⟨heq, halive, hdisabled⟩
    cases heq
    rw [halive, hdisabled] at henabled
    exact henabled rfl

theorem addWin_win {hOwner pHosting : Option Nat} {modal : Bool} (hhosting howner) (i : Nat)
    : (s.addWin styles hOwner pHosting modal hhosting howner).win i
        = if i = s.count then ⟨true, pHosting, hOwner, styles.disabled, styles.modalDisabled, modal, styles.isDialog⟩
          else s.win i := rfl

theorem enableOwner_win (hOwner : Option Nat) (i : Nat) : (s.enableOwner hOwner).win i
        = if hOwner = some i ∧ (s.win i).alive = true ∧ (s.win i).modalDisabled = true then
            { s.win i with disabled := false, modalDisabled := false }
          else
            s.win i := by
  unfold enableOwner
  cases hOwner with
  | none => rw [if_neg (fun hand => Option.some_ne_none i hand.1.symm)]
  | some w =>
    dsimp only
    by_cases hmark : ((s.win w).alive && (s.win w).modalDisabled) = true
    . obtain ⟨halive, hmodal⟩ := Bool.and_eq_true_iff.mp hmark
      rw [if_pos hmark, enableMark_win s halive]
      by_cases hi : i = w
      . rw [hi, if_pos rfl, if_pos ⟨rfl, halive, hmodal⟩]
        rfl
      . have hne : some w ≠ some i := fun heq => hi (Option.some.inj heq).symm
        rw [if_neg hi, if_neg (fun hand => hne hand.1)]
    . rw [if_neg hmark, if_neg]
      rintro ⟨heq, hand⟩
      cases heq
      exact hmark (Bool.and_eq_true_iff.mpr hand)

theorem hasDialog_iff (w : Nat)
    : s.HasDialog w ↔ ∃ d, (s.win d).alive = true ∧ (s.win d).modal = true ∧ (s.win d).hOwner = some w := by
  constructor
  . rintro ⟨d, _, hd⟩
    exact ⟨d, hd⟩
  . rintro ⟨d, hd⟩
    exact ⟨d, alive_lt hd.1, hd⟩

end Windows

structure Ends (s t : DlgWorld) (top touched : Nat → Prop) (lo : Nat) : Prop where
  count : t.count = s.count
  frame : ∀ y, (t.win y).alive = true → ¬touched y → t.win y = s.win y
  alive : ∀ y, (t.win y).alive = true → (s.win y).alive = true
  died : ∀ y, (s.win y).alive = true → (t.win y).alive = false → top y ∨ ∃ p, (s.win y).pHosting = some p
    ∧ (t.win p).alive = false
  fields : ∀ y, (t.win y).pHosting = (s.win y).pHosting ∧ (t.win y).modal = (s.win y).modal
    ∧ (t.win y).hOwner = (s.win y).hOwner
  kept : ∀ y, y < lo → (s.win y).alive = true → (t.win y).alive = true

namespace Ends

variable {s t u : DlgWorld} {top top' touched touched' : Nat → Prop} {lo lo' : Nat}

theorem refl (s : DlgWorld) (top touched : Nat → Prop) (lo : Nat) : Ends s s top touched lo where
  count := rfl
  frame := fun _ _ _ => rfl
  alive := fun _ h => h
  died := by
    intro y hs ht
    rw [hs] at ht
    cases ht
  fields := fun _ => ⟨rfl, rfl, rfl⟩
  kept := fun _ _ h => h

theorem mono (h : Ends s t top touched lo) (htop : ∀ y, top y → top' y) (htouched : ∀ y, touched y → touched' y)
    (hlo : lo' ≤ lo) : Ends s t top' touched' lo' where
  count := h.count
  frame := fun y ht hnot => h.frame y ht (fun hy => hnot (htouched y hy))
  alive := h.alive
  died := fun y hs ht => (h.died y hs ht).imp_left (htop y)
  fields := h.fields
  kept := fun y hy => h.kept y (Nat.lt_of_lt_of_le hy hlo)

theorem trans (h : Ends s t top touched lo) (h' : Ends t u top touched lo) : Ends s u top touched lo where
  count := h'.count.trans h.count
  frame := by
    intro y hu hnot
    rw [h'.frame y hu hnot, h.frame y (h'.alive y hu) hnot]
  alive := fun y hu => h.alive y (h'.alive y hu)
  died := by
    intro y hs hu
    cases ht : (t.win y).alive with
    | true =>
      rw [← (h.fields y).1]
      exact h'.died y ht hu
    | false =>
      refine (h.died y hs ht).imp_right ?_
      rintro ⟨p, hp, hdead⟩
      refine ⟨p, hp, ?_⟩
      rw [← Bool.not_eq_true] at hdead ⊢
      exact fun halive => hdead (h'.alive p halive)
  fields := by
    intro y
    obtain ⟨h1, h2, h3⟩ := h.fields y
    obtain ⟨h1', h2', h3'⟩ := h'.fields y
    exact ⟨h1'.trans h1, h2'.trans h2, h3'.trans h3⟩
  kept := fun y hy hs => h'.kept y hy (h.kept y hy hs)

end Ends

theorem Ends.enableOwner {s t : DlgWorld} {top : Nat → Prop} {lo : Nat} (h : Ends s t top (fun _ => False) lo)
    (hOwner : Option Nat) : Ends s (t.enableOwner hOwner) top (fun y => hOwner = some y) lo := by
  have halive : ∀ y, ((t.enableOwner hOwner).win y).alive = (t.win y).alive := by
    intro y
    rw [enableOwner_win]
    split <;> rfl
  constructor
  . rw [enableOwner_count]
    exact h.count
  . intro y ht hnot
    rw [halive] at ht
    rw [enableOwner_win, if_neg (fun hand => hnot hand.1)]
    exact h.frame y ht id
  . intro y ht
    rw [halive] at ht
    exact h.alive y ht
  . intro y hs ht
    rw [halive] at ht
    simp only [halive]
    exact h.died y hs ht
  . intro y
    rw [enableOwner_win]
    split
    . exact h.fields y
    . exact h.fields y
  . intro y hy hs
    rw [halive]
    exact h.kept y hy hs

structure Destroys (refuses : Nat → Bool) (s t : DlgWorld) (h : Nat) : Prop where
  ends : Ends s t (fun y => y = h) (fun _ => False) h
  gone : refuses h = false → (t.win h).alive = false
  refused : refuses h = true → t = s

theorem endDialogBy_ends {destroy : DlgWorld → Nat → Option DlgWorld} {s : DlgWorld}
    (hdestroy : ∃ t, destroy s h = some t ∧ Destroys refuses s t h)
    : ∃ t, endDialogBy destroy s h = some t ∧ Ends s t (fun y => y = h) (fun y => (s.win h).pHosting = some y) h := by
  unfold endDialogBy
  split
  . obtain ⟨t, ht, hends⟩ := hdestroy
    rw [ht]
    exact ⟨_, rfl, hends.ends.enableOwner _⟩
  . exact ⟨s, rfl, Ends.refl _ _ _ _⟩

theorem foldlM_ends {f : DlgWorld → Nat → Option DlgWorld} {n : Nat} {heads : List Nat} {s : DlgWorld}
    (hf : ∀ (s : DlgWorld) c, s.count = n → c < n → h < c → (s.win c).pHosting = some h →
      ∃ t, f s c = some t ∧ Ends s t (fun y => y = c) (fun y => y = h) c)
    (hn : s.count = n) (hheads : ∀ c ∈ heads, c < n ∧ h < c ∧ (s.win c).pHosting = some h)
    : ∃ t, heads.foldlM f s = some t ∧ Ends s t (fun y => (s.win y).pHosting = some h) (fun y => y = h) (h + 1) := by
  induction heads generalizing s with
  | nil => exact ⟨s, rfl, Ends.refl _ _ _ _⟩
  | cons c heads ih =>
    obtain ⟨hlt, holder, hhosting⟩ := hheads c List.mem_cons_self
    obtain ⟨t, ht, hends⟩ := hf s c hn hlt holder hhosting
    have htop : ∀ y, (t.win y).pHosting = some h ↔ (s.win y).pHosting = some h := by
      intro y
      rw [(hends.fields y).1]
    obtain ⟨u, hu, hrest⟩ := @ih t (hends.count.trans hn) (by
      intro c' hc'
      rw [htop]
      exact hheads c' (List.mem_cons_of_mem c hc'))
    simp only [htop] at hrest
    refine ⟨u, ?_, ?_⟩
    . rw [List.foldlM_cons, ht]
      exact hu
    . refine Ends.trans (hends.mono ?_ (fun _ => id) holder) hrest
      rintro y rfl
      exact hhosting

theorem mem_hosted {s : DlgWorld} {c : Nat} (hc : c ∈ s.hosted h)
    : c < s.count ∧ h < c ∧ (s.win c).pHosting = some h := by
  unfold hosted at hc
  rw [List.mem_filter, List.mem_range, Bool.and_eq_true_iff] at hc
  have hhosting := of_decide_eq_true hc.2.2
  exact ⟨hc.1, s.older c h hc.2.1 hhosting, hhosting⟩

theorem destroyMainWindow_spec (refuses : Nat → Bool) {rounds : Nat} {s : DlgWorld} {h : Nat} (hlt : h < s.count)
    (hrounds : s.count < rounds + h)
    : ∃ t, destroyMainWindow refuses rounds s h = some t ∧ Destroys refuses s t h := by
  induction rounds generalizing s h with
  | zero => omega
  | succ rounds ih =>
    unfold destroyMainWindow
    by_cases halive : (s.win h).alive = false
    . rw [if_pos halive]
      exact ⟨s, rfl, Ends.refl _ _ _ _, fun _ => halive, fun _ => rfl⟩
    rw [if_neg halive]
    by_cases href : refuses h = true
    . rw [if_pos href]
      refine ⟨s, rfl, Ends.refl _ _ _ _, ?_, fun _ => rfl⟩
      intro hnot
      rw [hnot] at href
      cases href
    rw [if_neg href]
    have hstep : ∀ (t : DlgWorld) c, t.count = s.count → c < s.count → h < c → (t.win c).pHosting = some h →
        ∃ u, (if (t.win c).isDialog = true then endDialogBy (destroyMainWindow refuses rounds) t c
              else destroyMainWindow refuses rounds t c) = some u
          ∧ Ends t u (fun y => y = c) (fun y => y = h) c := by
      intro t c ht hc holder hhosting
      have hdestroy := @ih t c (by omega) (by omega)
      split
      . obtain ⟨u, hu, hends⟩ := endDialogBy_ends hdestroy
        rw [hhosting] at hends
        exact ⟨u, hu, hends.mono (fun _ => id) (fun y hy => (Option.some.inj hy).symm) (Nat.le_refl c)⟩
      . obtain ⟨u, hu, hends⟩ := hdestroy
        exact ⟨u, hu, hends.ends.mono (fun _ => id) (fun _ => False.elim) (Nat.le_refl c)⟩
    obtain ⟨t, ht, hends⟩ := foldlM_ends hstep rfl (fun c hc => mem_hosted hc)
    rw [ht]
    refine ⟨t.kill h, rfl, ?_, ?_, fun h => absurd h href⟩
    . have hdead : ∀ y, (t.win y).alive = false → ((t.kill h).win y).alive = false := by
        intro y hy
        rw [kill_win]
        split
        . rfl
        . exact hy
      constructor
      . exact hends.count
      . intro y hy _
        rw [kill_win] at hy ⊢
        split at hy
        . cases hy
        . rename_i hne
          rw [if_neg hne]
          exact hends.frame y hy hne
      . intro y hy
        rw [kill_win] at hy
        split at hy
        . cases hy
        . exact hends.alive y hy
      . intro y hs hy
        by_cases hy' : y = h
        . exact .inl hy'
        right
        rw [kill_win, if_neg hy'] at hy
        rcases hends.died y hs hy with htop | ⟨p, hp, hpdead⟩
        . refine ⟨h, htop, ?_⟩
          rw [kill_win, if_pos rfl]
        . exact ⟨p, hp, hdead p hpdead⟩
      . intro y
        rw [kill_win]
        split
        . rename_i heq
          rw [heq]
          exact hends.fields h
        . exact hends.fields y
      . intro y hy hs
        rw [kill_win, if_neg (by omega)]
        exact hends.kept y (by omega) hs
    . intro _
      rw [kill_win, if_pos rfl]

theorem endDialog_spec (refuses : Nat → Bool) (s : DlgWorld) (halive : (s.win h).alive = true)
    (hmodal : (s.win h).modal = true)
    : ∃ t, s.endDialog refuses h = some (t.enableOwner (s.win h).pHosting) ∧ Destroys refuses s t h := by
  obtain ⟨t, ht, hends⟩ := @destroyMainWindow_spec refuses (s.count + 1) s h (alive_lt halive) (by omega)
  refine ⟨t, ?_, hends⟩
  unfold endDialog endDialogBy
  rw [halive, hmodal, Bool.and_self, if_pos rfl, ht]
  rfl

theorem Ends.hasDialog {s t : DlgWorld} {touched : Nat → Prop} {y : Nat} (hends : Ends s t (fun y => y = h) touched h)
    (hy : (t.win y).alive = true)
    : t.HasDialog y ↔ ∃ d, (s.win d).alive = true ∧ (s.win d).modal = true ∧ (s.win d).hOwner = some y
        ∧ (d = h → (t.win h).alive = true) := by
  rw [hasDialog_iff]
  constructor
  . rintro ⟨d, hd, hmodal, howner⟩
    obtain ⟨-, hmodal', howner'⟩ := hends.fields d
    rw [hmodal'] at hmodal
    rw [howner'] at howner
    refine ⟨d, hends.alive d hd, hmodal, howner, ?_⟩
    rintro rfl
    exact hd
  rintro ⟨d, hd, hmodal, howner, hstays⟩
  obtain ⟨-, hmodal', howner'⟩ := hends.fields d
  refine ⟨d, ?_, by rw [hmodal', hmodal], by rw [howner', howner]⟩
  by_contra hdead
  rw [Bool.not_eq_true] at hdead
  rcases hends.died d hd hdead with rfl | ⟨p, hp, hpdead⟩
  . rw [hstays rfl] at hdead
    cases hdead
  rw [s.hosts d y howner] at hp
  cases hp
  rw [hy] at hpdead
  cases hpdead

end DlgWorld

namespace DlgState

open DlgWorld

def OwnedAt (s : DlgWorld) (asked : Nat → Bool) (w : Nat) : Prop :=
  ((s.win w).disabled = true ↔ asked w = true ∨ s.HasDialog w)
    ∧ ((s.win w).modalDisabled = true ↔ asked w = false ∧ s.HasDialog w)

theorem OwnedAt.congr {s t : DlgWorld} {asked asked' : Nat → Bool} {w : Nat} (h : OwnedAt s asked w)
    (hwin : t.win w = s.win w)
    (hasked : asked' w = asked w) (hdialog : t.HasDialog w ↔ s.HasDialog w) : OwnedAt t asked' w := by
  unfold OwnedAt
  rw [hwin, hasked, hdialog]
  exact h

variable {asked : Nat → Bool}

theorem OwnedAt.fewer {s t : DlgWorld} (h : OwnedAt s asked w) (hwin : t.win w = s.win w)
    (hmark : (s.win w).modalDisabled = false) (hfewer : t.HasDialog w → s.HasDialog w) : OwnedAt t asked w := by
  unfold OwnedAt at h ⊢
  rw [hmark] at h
  rw [hwin, hmark]
  by_cases hdialog : s.HasDialog w
  . have hasked : asked w = true := by
      by_contra hnot
      rw [Bool.not_eq_true] at hnot
      exact Bool.false_ne_true (h.2.mpr ⟨hnot, hdialog⟩)
    rw [h.1, hasked]
    simp
  . have hnone : ¬t.HasDialog w := fun h => hdialog (hfewer h)
    simp [h.1, hdialog, hnone]

theorem ownedAt_of_none {s : DlgWorld} (hdialog : ¬s.HasDialog w)
    (hdisabled : (s.win w).disabled = asked w) (hmark : (s.win w).modalDisabled = false) : OwnedAt s asked w := by
  unfold OwnedAt
  rw [hdisabled, hmark]
  simp [hdialog]

theorem NoDialogs.owned (s : NoDialogs) : s.start.Owned := by
  intro w _
  apply ownedAt_of_none
  . rintro ⟨d, _, _, hmodal, _⟩
    have hno := s.noModal d
    rw [show (s.start.world.win d).modal = (s.win d).modal from rfl, hno] at hmodal
    cases hmodal
  . rfl
  . exact s.unmarked w

section Step

variable {σ σ' : DlgState}

theorem owned_endDialog (howned : σ.Owned) (hnext : σ.next (.endDialog refuses h) = some σ')
    : σ'.Owned ↔ σ.StepOk (.endDialog refuses h) := by
  obtain ⟨s, asked⟩ := σ
  by_cases hdialog : (s.win h).alive = true ∧ (s.win h).modal = true
  . obtain ⟨halive, hmodal⟩ := hdialog
    obtain ⟨t, ht, hdestroys⟩ := endDialog_spec refuses s halive hmodal
    have hends := hdestroys.ends.enableOwner (s.win h).pHosting
    unfold next at hnext
    dsimp only at hnext
    rw [ht] at hnext
    cases hnext
    -- a window that does not host the dialog is as it was
    have hother : ∀ y, ((t.enableOwner (s.win h).pHosting).win y).alive = true → (s.win h).pHosting ≠ some y →
        OwnedAt (t.enableOwner (s.win h).pHosting) asked y := by
      intro y hy hne
      apply OwnedAt.congr (howned y (hends.alive y hy)) (hends.frame y hy hne) rfl
      rw [hends.hasDialog hy, hasDialog_iff]
      constructor
      . rintro ⟨d, hd, hdmodal, howner, -⟩
        exact ⟨d, hd, hdmodal, howner⟩
      rintro ⟨d, hd, hdmodal, howner⟩
      refine ⟨d, hd, hdmodal, howner, ?_⟩
      rintro rfl
      exact absurd (s.hosts d y howner) hne
    by_cases hmarked : ∃ w, (s.win h).pHosting = some w ∧ (s.win w).alive = true ∧ (s.win w).modalDisabled = true
    . obtain ⟨w, hw, hwalive, hmark⟩ := hmarked
      have hkept := hdestroys.ends.kept w (s.older h w halive hw) hwalive
      have hframe := hdestroys.ends.frame w hkept id
      have hwin : (t.enableOwner (s.win h).pHosting).win w = { s.win w with disabled := false, modalDisabled := false } := by
        rw [enableOwner_win, hframe, if_pos ⟨hw, hwalive, hmark⟩]
      have hwalive' : ((t.enableOwner (s.win h).pHosting).win w).alive = true := by
        rw [hwin]
        exact hwalive
      obtain ⟨hasked, hbefore⟩ := (howned w hwalive).2.mp hmark
      have hlast : DlgState.Owned ⟨t.enableOwner (s.win h).pHosting, asked⟩
        ↔ ¬(t.enableOwner (s.win h).pHosting).HasDialog w := by
        constructor
        . intro howned' hdialog
          have hdisabled := (howned' w hwalive').1.mpr (Or.inr hdialog)
          rw [hwin] at hdisabled
          cases hdisabled
        intro hnone y hy
        by_cases heq : w = y
        . rw [← heq]
          apply ownedAt_of_none hnone
          . rw [hwin]
            exact hasked.symm
          . rw [hwin]
        . apply hother y hy
          rw [hw]
          exact fun h => heq (Option.some.inj h)
      rw [hlast, hends.hasDialog hwalive']
      constructor
      . intro hnone w' _ _ hw' _ _
        rw [hw] at hw'
        cases hw'
        constructor
        . by_contra href
          rw [Bool.not_eq_false] at href
          obtain ⟨d, hd⟩ := (hasDialog_iff s w).mp hbefore
          refine hnone ⟨d, hd.1, hd.2.1, hd.2.2, ?_⟩
          intro _
          rw [hdestroys.refused href, enableOwner_win]
          split
          . exact halive
          . exact halive
        . intro d hd hdmodal howner
          by_contra hne
          exact hnone ⟨d, hd, hdmodal, howner, fun h => absurd h hne⟩
      intro hok
      obtain ⟨href, honly⟩ := hok w halive hmodal hw hwalive hmark
      rintro ⟨d, hd, hdmodal, howner, hstays⟩
      have hgone := hstays (honly d hd hdmodal howner)
      have hdead := hdestroys.gone href
      rw [enableOwner_win] at hgone
      split at hgone
      . rw [hdead] at hgone
        cases hgone
      . rw [hdead] at hgone
        cases hgone
    refine iff_of_true ?_ ?_
    . intro y hy
      by_cases hhost : (s.win h).pHosting = some y
      . have hyalive := hends.alive y hy
        have hmark : (s.win y).modalDisabled = false := by
          rw [← Bool.not_eq_true]
          exact fun hmark => hmarked ⟨y, hhost, hyalive, hmark⟩
        have hframe : t.win y = s.win y := by
          apply hdestroys.ends.frame y ?_ id
          exact hdestroys.ends.kept y (s.older h y halive hhost) hyalive
        have hwin : (t.enableOwner (s.win h).pHosting).win y = s.win y := by
          rw [enableOwner_win, hframe, if_neg]
          rintro ⟨-, -, h⟩
          rw [hmark] at h
          cases h
        have hbefore := howned y hyalive
        have hfewer : (t.enableOwner (s.win h).pHosting).HasDialog y → s.HasDialog y := by
          rw [hends.hasDialog hy, hasDialog_iff]
          rintro ⟨d, hd, hdmodal, howner, -⟩
          exact ⟨d, hd, hdmodal, howner⟩
        exact OwnedAt.fewer hbefore hwin hmark hfewer
      . exact hother y hy hhost
    . intro w _ _ hw hwalive hmark
      exact absurd ⟨w, hw, hwalive, hmark⟩ hmarked
  . have hsame : s.endDialog refuses h = some s := by
      unfold endDialog endDialogBy
      rw [if_neg]
      rw [Bool.and_eq_true_iff]
      exact hdialog
    unfold next at hnext
    dsimp only at hnext
    rw [hsame] at hnext
    cases hnext
    exact iff_of_true howned (fun w halive hmodal => absurd ⟨halive, hmodal⟩ hdialog)

theorem dialogBox_win (s : DlgWorld) (styles : Styles) (hOwner root : Option Nat) (i : Nat)
    : (s.dialogBoxIndirectParam styles hOwner root).win i
        = if i = s.count then
            ⟨true, s.newHosting hOwner root, s.getMainWindow hOwner, styles.disabled, styles.modalDisabled, true,
              styles.isDialog⟩
          else if s.getMainWindow hOwner = some i ∧ (s.win i).disabled = false then
            { s.win i with disabled := true, modalDisabled := true }
          else
            s.win i := by
  unfold dialogBoxIndirectParam
  rw [disableOwner_win, addWin_win]
  by_cases hi : i = s.count
  . have hne : s.getMainWindow hOwner ≠ some i := by
      intro hw
      have hlt := alive_lt (getMainWindow_alive hw)
      omega
    rw [if_pos hi, if_neg (fun hand => hne hand.1), if_pos hi]
  rw [if_neg hi, if_neg hi]
  by_cases hw : s.getMainWindow hOwner = some i
  . simp only [hw, getMainWindow_alive hw, true_and]
  . rw [if_neg (fun hand => hw hand.1), if_neg (fun hand => hw hand.1)]

theorem not_hasDialog_fresh (s : DlgWorld) : ¬s.HasDialog s.count := by
  rintro ⟨d, hlt, hd, _, howner⟩
  have holder := s.older d s.count hd (s.hosts d s.count howner)
  omega

theorem dialogBox_hasDialog (s : DlgWorld) (styles : Styles) (hOwner root : Option Nat) (y : Nat)
    : (s.dialogBoxIndirectParam styles hOwner root).HasDialog y ↔ s.getMainWindow hOwner = some y ∨ s.HasDialog y := by
  have hfields : ∀ d, d ≠ s.count →
      ((s.dialogBoxIndirectParam styles hOwner root).win d).alive = (s.win d).alive
        ∧ ((s.dialogBoxIndirectParam styles hOwner root).win d).modal = (s.win d).modal
        ∧ ((s.dialogBoxIndirectParam styles hOwner root).win d).hOwner = (s.win d).hOwner := by
    intro d hd
    rw [dialogBox_win, if_neg hd]
    split
    . exact ⟨rfl, rfl, rfl⟩
    . exact ⟨rfl, rfl, rfl⟩
  rw [hasDialog_iff, hasDialog_iff]
  constructor
  . rintro ⟨d, hd, hmodal, howner⟩
    by_cases hnew : d = s.count
    . left
      rw [dialogBox_win, if_pos hnew] at howner
      exact howner
    . right
      obtain ⟨h1, h2, h3⟩ := hfields d hnew
      exact ⟨d, by rw [← h1, hd], by rw [← h2, hmodal], by rw [← h3, howner]⟩
  rintro (hw | ⟨d, hd, hmodal, howner⟩)
  . refine ⟨s.count, ?_⟩
    rw [dialogBox_win, if_pos rfl]
    exact ⟨rfl, rfl, hw⟩
  . have hlt := alive_lt hd
    obtain ⟨h1, h2, h3⟩ := hfields d (by omega)
    exact ⟨d, by rw [h1, hd], by rw [h2, hmodal], by rw [h3, howner]⟩

theorem owned_added {s s' : DlgWorld} (halive : (s'.win s.count).alive = true)
    (hdisabled : (s'.win s.count).disabled = styles.disabled)
    (hmark : (s'.win s.count).modalDisabled = styles.modalDisabled) (hnone : ¬s'.HasDialog s.count)
    (hrest : ∀ y, y ≠ s.count → (s'.win y).alive = true →
      OwnedAt s' (fun i => if i = s.count then styles.disabled else asked i) y)
    : Owned ⟨s', fun i => if i = s.count then styles.disabled else asked i⟩ ↔ styles.modalDisabled = false := by
  constructor
  . intro howned'
    have hmarked := (howned' s.count halive).2
    rw [hmark] at hmarked
    rw [← Bool.not_eq_true]
    exact fun h => hnone (hmarked.mp h).2
  intro hok y hy
  by_cases hcount : y = s.count
  . rw [hcount]
    apply ownedAt_of_none hnone
    . rw [hdisabled]
      exact (if_pos rfl).symm
    . rw [hmark]
      exact hok
  . exact hrest y hcount hy

theorem owned_dialogBox {hOwner root : Option Nat} (howned : σ.Owned)
    (hnext : σ.next (.dialogBox styles hOwner root) = some σ') : σ'.Owned ↔ σ.StepOk (.dialogBox styles hOwner root) := by
  obtain ⟨s, asked⟩ := σ
  cases hnext
  have hnone : ¬(s.dialogBoxIndirectParam styles hOwner root).HasDialog s.count := by
    rw [dialogBox_hasDialog]
    rintro (hw | h)
    . have hlt := alive_lt (getMainWindow_alive hw)
      omega
    . exact not_hasDialog_fresh s h
  have hnew := dialogBox_win s styles hOwner root s.count
  rw [if_pos rfl] at hnew
  refine owned_added (by rw [hnew]) (by rw [hnew]) (by rw [hnew]) hnone ?_
  intro y hcount hy
  have hwin := dialogBox_win s styles hOwner root y
  rw [if_neg hcount] at hwin
  have hyalive : (s.win y).alive = true := by
    rw [hwin] at hy
    split at hy
    . exact hy
    . exact hy
  have hbefore : OwnedAt s asked y := howned y hyalive
  by_cases hw : s.getMainWindow hOwner = some y
  . unfold OwnedAt at hbefore ⊢
    dsimp only
    rw [hwin, dialogBox_hasDialog, if_neg hcount]
    cases hdisabled : (s.win y).disabled with
    | false =>
      rw [hdisabled] at hbefore
      have hasked : asked y = false := by
        rw [← Bool.not_eq_true]
        exact fun h => Bool.false_ne_true (hbefore.1.mpr (Or.inl h))
      simp [hw, hasked]
    | true =>
      rw [if_neg (by simp), hbefore.2, hdisabled]
      rw [hdisabled] at hbefore
      have hcases := hbefore.1.mp rfl
      cases hasked : asked y with
      | false =>
        rw [hasked] at hcases
        have hdialog := hcases.resolve_left Bool.false_ne_true
        simp [hw, hdialog]
      | true => simp
  apply OwnedAt.congr hbefore
  . rw [hwin, if_neg (fun hand => hw hand.1)]
  . exact if_neg hcount
  . rw [dialogBox_hasDialog]
    exact or_iff_right hw

theorem owned_createMainWindow {hHosting root : Option Nat} (howned : σ.Owned)
    (hnext : σ.next (.createMainWindow styles hHosting root) = some σ')
    : σ'.Owned ↔ σ.StepOk (.createMainWindow styles hHosting root) := by
  obtain ⟨s, asked⟩ := σ
  cases hnext
  have hdialog : ∀ y, (s.createMainWindow styles hHosting root).HasDialog y ↔ s.HasDialog y := by
    intro y
    rw [hasDialog_iff, hasDialog_iff]
    unfold createMainWindow
    constructor
    . rintro ⟨d, hd, hmodal, howner⟩
      rw [addWin_win] at hd hmodal howner
      split at hd
      . rw [if_pos (by assumption)] at hmodal
        cases hmodal
      . rw [if_neg (by assumption)] at hmodal howner
        exact ⟨d, hd, hmodal, howner⟩
    rintro ⟨d, hd, hmodal, howner⟩
    have hlt := alive_lt hd
    refine ⟨d, ?_⟩
    rw [addWin_win, if_neg (by omega)]
    exact ⟨hd, hmodal, howner⟩
  have hnew : (s.createMainWindow styles hHosting root).win s.count
      = ⟨true, s.newHosting hHosting root, none, styles.disabled, styles.modalDisabled, false,
        styles.isDialog⟩ := if_pos rfl
  have hnone : ¬(s.createMainWindow styles hHosting root).HasDialog s.count := by
    rw [hdialog]
    exact not_hasDialog_fresh s
  refine owned_added (by rw [hnew]) (by rw [hnew]) (by rw [hnew]) hnone ?_
  intro y hcount hy
  have hwin : (s.createMainWindow styles hHosting root).win y = s.win y := if_neg hcount
  rw [hwin] at hy
  exact OwnedAt.congr (howned y hy) hwin (if_neg hcount) (hdialog y)

theorem owned_destroyMainWindow (howned : σ.Owned)
    (hnext : σ.next (.destroyMainWindow refuses h) = some σ') : σ'.Owned := by
  obtain ⟨s, asked⟩ := σ
  unfold next at hnext
  dsimp only at hnext
  split at hnext
  . cases hnext
    exact howned
  rename_i hmodal
  by_cases hlt : h < s.count
  . obtain ⟨t, ht, hdestroys⟩ := @destroyMainWindow_spec refuses (s.count + 1) s h hlt (by omega)
    have hends := hdestroys.ends
    rw [ht] at hnext
    cases hnext
    intro y hy
    apply OwnedAt.congr (howned y (hends.alive y hy)) (hends.frame y hy id) rfl
    rw [hends.hasDialog hy, hasDialog_iff]
    constructor
    . rintro ⟨d, hd, hdmodal, howner, -⟩
      exact ⟨d, hd, hdmodal, howner⟩
    rintro ⟨d, hd, hdmodal, howner⟩
    refine ⟨d, hd, hdmodal, howner, ?_⟩
    rintro rfl
    exact absurd hdmodal hmodal
  . unfold DlgWorld.destroyMainWindow at hnext
    rw [if_pos (s.fresh h (by omega))] at hnext
    cases hnext
    exact howned

theorem owned_enableWindow {fEnable : Bool} (howned : σ.Owned)
    (hnext : σ.next (.enableWindow h fEnable) = some σ') : σ'.Owned := by
  obtain ⟨s, asked⟩ := σ
  unfold next at hnext
  dsimp only at hnext
  split at hnext
  . cases hnext
    exact howned
  rename_i hnone
  cases hnext
  have hfields : ∀ d, ((s.enableWindow h fEnable).win d).alive = (s.win d).alive
      ∧ ((s.enableWindow h fEnable).win d).modal = (s.win d).modal
      ∧ ((s.enableWindow h fEnable).win d).hOwner = (s.win d).hOwner
      ∧ ((s.enableWindow h fEnable).win d).modalDisabled = (s.win d).modalDisabled := by
    intro d
    rw [enableWindow_win]
    split
    . exact ⟨rfl, rfl, rfl, rfl⟩
    . exact ⟨rfl, rfl, rfl, rfl⟩
  have hdialog : ∀ y, (s.enableWindow h fEnable).HasDialog y ↔ s.HasDialog y := by
    intro y
    rw [hasDialog_iff, hasDialog_iff]
    apply exists_congr
    intro d
    obtain ⟨h1, h2, h3, -⟩ := hfields d
    rw [h1, h2, h3]
  intro y hy
  change OwnedAt (s.enableWindow h fEnable) (fun i => if i = h then !fEnable else asked i) y
  rw [(hfields y).1] at hy
  have hbefore : OwnedAt s asked y := howned y hy
  by_cases heq : y = h
  . rw [heq] at hy hbefore ⊢
    apply ownedAt_of_none
    . rw [hdialog]
      exact hnone
    . rw [enableWindow_win, if_pos ⟨rfl, hy⟩, if_pos rfl]
    . rw [(hfields h).2.2.2, ← Bool.not_eq_true]
      exact fun hmark => hnone (hbefore.2.mp hmark).2
  . apply OwnedAt.congr hbefore
    . rw [enableWindow_win, if_neg (fun hand => heq hand.1)]
    . exact if_neg heq
    . exact hdialog y

theorem next_total (σ : DlgState) (action : DlgAction) : ∃ σ', σ.next action = some σ' := by
  obtain ⟨s, asked⟩ := σ
  cases action with
  | dialogBox styles hOwner root => exact ⟨_, rfl⟩
  | createMainWindow styles hHosting root => exact ⟨_, rfl⟩
  | endDialog refuses h =>
    unfold next
    dsimp only
    by_cases hdialog : (s.win h).alive = true ∧ (s.win h).modal = true
    . obtain ⟨t, ht, -⟩ := endDialog_spec refuses s hdialog.1 hdialog.2
      rw [ht]
      exact ⟨_, rfl⟩
    . unfold endDialog endDialogBy
      rw [if_neg (by rw [Bool.and_eq_true_iff]; exact hdialog)]
      exact ⟨_, rfl⟩
  | destroyMainWindow refuses h =>
    unfold next
    dsimp only
    split
    . exact ⟨_, rfl⟩
    by_cases hlt : h < s.count
    . obtain ⟨t, ht, -⟩ := @destroyMainWindow_spec refuses (s.count + 1) s h hlt (by omega)
      rw [ht]
      exact ⟨_, rfl⟩
    . unfold DlgWorld.destroyMainWindow
      rw [if_pos (s.fresh h (by omega))]
      exact ⟨_, rfl⟩
  | enableWindow h fEnable =>
    unfold next
    dsimp only
    split
    . exact ⟨_, rfl⟩
    . exact ⟨_, rfl⟩

theorem owned_next {action : DlgAction} (howned : σ.Owned) (hnext : σ.next action = some σ')
    : σ'.Owned ↔ σ.StepOk action := by
  cases action with
  | dialogBox styles hOwner root => exact owned_dialogBox howned hnext
  | endDialog refuses h => exact owned_endDialog howned hnext
  | createMainWindow styles hHosting root => exact owned_createMainWindow howned hnext
  | destroyMainWindow refuses h => exact iff_of_true (owned_destroyMainWindow howned hnext) trivial
  | enableWindow h fEnable => exact iff_of_true (owned_enableWindow howned hnext) trivial

end Step

theorem always_owned {σ : DlgState} (howned : σ.Owned) (actions : List DlgAction)
    : σ.Always Owned actions ↔ σ.StepsOk actions := by
  induction actions generalizing σ with
  | nil => exact iff_of_true howned trivial
  | cons action actions ih =>
    obtain ⟨σ', hσ'⟩ := next_total σ action
    have hstep := owned_next howned hσ'
    constructor
    . rintro ⟨_, σ₁, hσ₁, hrest⟩
      rw [hσ'] at hσ₁
      cases hσ₁
      have howned' : σ'.Owned := by
        cases actions with
        | nil => exact hrest
        | cons _ _ => exact hrest.1
      refine ⟨hstep.mp howned', ?_⟩
      intro σ₁ hσ₁
      rw [hσ'] at hσ₁
      cases hσ₁
      exact (ih howned').mp hrest
    . rintro ⟨hok, hrest⟩
      exact ⟨howned, σ', hσ', (ih (hstep.mpr hok)).mpr (hrest σ' hσ')⟩

/--
In a run the owners are disabled by their dialogs exactly when each dialog that ends is the last one of its owner.
-/
theorem modal_owners (s : NoDialogs) (actions : List DlgAction) : s.start.Always Owned actions ↔ s.start.StepsOk actions :=
  always_owned (NoDialogs.owned s) actions

theorem beq_zero_of_pos (i : Nat) (h : 1 ≤ i) : (i == 0) = false :=
  beq_false_of_ne (Nat.ne_of_gt h)

def oneWindow : NoDialogs where
  count := 1
  win := fun i => ⟨i == 0, none, none, false, false, false, false⟩
  fresh := beq_zero_of_pos
  older := fun _ _ _ h => nomatch h
  hosts := fun _ _ h => nomatch h
  noModal := fun _ => rfl
  unmarked := fun _ => rfl

def plainStyles : Styles := ⟨false, false, true⟩

theorem not_modal_owners : ¬∀ (s : NoDialogs) (actions : List DlgAction), s.start.Always Owned actions := by
  intro h
  have hrun := h oneWindow [.dialogBox plainStyles (some 0) none, .dialogBox plainStyles (some 0) none,
    .endDialog (fun _ => false) 2]
  have hok := (always_owned (NoDialogs.owned oneWindow) _).mp hrun
  obtain ⟨-, hok⟩ := hok
  obtain ⟨-, hok⟩ := hok _ rfl
  have hlast := (hok _ rfl).1
  have honly := (hlast 0 (by decide) (by decide) (by decide) (by decide) (by decide)).2 1 (by decide) (by decide) (by decide)
  cases honly

end DlgState

end MiniGui
