import MiniGui.Control.SlRuns

/-!
What is left of a single-line edit control when the length limit or the memory refuses a text.
-/

namespace MiniGui.SlEdit

inductive Edit where
  | message (m : SlMessage)
  | setTextNoMem (str : List UInt8)

section Edits

variable (window : SlWindow) (s : SlEdit)

/-- The text that a message puts in at the caret. -/
def insertion : SlMessage → Option (List UInt8)
  | .char wParam => inserted window (.char wParam)
  | .paste clipboard => if window.readonly then none else some clipboard
  | .insertText newtext len =>
    if min len (beforeNul newtext).length ≤ 0 ∨ window.readonly then
      none
    else
      some (((beforeNul newtext).take len.toNat).map (caseOf window))
  | _ => none

/-- `sleInsertText_refresh`, whose callers notify the parent in every case. -/
def refreshes : SlMessage → Bool
  | .char _ => window.align = .right ∧ s.selStart = s.selEnd
  | _ => false

/-- `sledit_reset_text` when the new buffer is not allocated. -/
def resetTextNoMem (str : List UInt8) : SlEdit :=
  let len : Int := (beforeNul str).length
  refreshCaret window
    { s with
      replace := false
      focused := false
      tmp := false
      selStart := 0
      selEnd := 0
      buffsize := if s.hardLimit ≥ 0 ∧ len > s.hardLimit then 0 else blockSizeOf (if len ≤ 0 then slBlockSize else len)
      txtlen := 0 }

def edited : Edit → SlEdit
  | .message m => s.onMessage window m
  | .setTextNoMem str => s.resetTextNoMem window str

/-- `EN_CHANGE` or `EN_UPDATE` is sent to the parent. -/
def notifies : Edit → Bool
  | .setTextNoMem _ | .message (.setText _ _) => true
  | .message m =>
    match insertion window m with
    | none => false
    | some bytes => s.refreshes window m || (s.deleteSelected.limited false bytes.length).isSome

/-- Nothing of the text is put in. -/
def Refused : Edit → Prop
  | .setTextNoMem _ => True
  | .message (.setText str _) => s.hardLimit ≥ 0 ∧ ((beforeNul str).length : Int) > s.hardLimit
  | .message m => ∃ bytes, insertion window m = some bytes ∧ bytes ≠ []
    ∧ ∀ n, s.deleteSelected.limited (s.refreshes window m) bytes.length = some n → n ≤ 0

/-- An insertion without a selection, not in replace mode and not typed into a right-aligned control. -/
def KeepsText : Edit → Prop
  | .setTextNoMem _ | .message (.setText _ _) => False
  | .message m => s.replace = false ∧ s.selStart = s.selEnd ∧ s.refreshes window m = false

end Edits

variable {window : SlWindow} {s : SlEdit}

theorem onMessage_insertion {m : SlMessage} {bytes : List UInt8} (h : insertion window m = some bytes)
    : s.onMessage window m = insertTextBy (s.refreshes window m) window s (some bytes) bytes.length := by
  cases m with
  | char wParam =>
    obtain ⟨typed, htyped, heq⟩ | ⟨hnone, -⟩ := onChar_cases window wParam
    . cases htyped.symm.trans h
      refine (heq s window.align).trans ?_
      unfold inputChar refreshes
      dsimp only
      split
      . next hright => rw [decide_eq_true hright]; rfl
      . next hright => rw [decide_eq_false hright]; rfl
    . cases hnone.symm.trans h
  | paste clipboard =>
    by_cases hreadonly : window.readonly
    . simp [insertion, hreadonly] at h
    . simp only [insertion, if_neg hreadonly, Option.some.injEq] at h
      simp only [onMessage, if_neg hreadonly, h]
      rfl
  | insertText newtext len =>
    simp only [insertion] at h
    split_ifs at h with hnone
    rw [not_or] at hnone
    cases h
    have hlen : (if len > (beforeNul newtext).length then ((beforeNul newtext).length : Int) else len)
        = min len (beforeNul newtext).length := by
      split <;> omega
    simp only [onMessage, insertText, hlen, if_neg hnone.1, if_neg hnone.2]
    have htake : (beforeNul newtext).take (min len (beforeNul newtext).length).toNat
        = (beforeNul newtext).take len.toNat := by
      rw [List.take_eq_take_iff]
      omega
    rw [htake, List.length_map, List.length_take]
    have hcast : min len ((beforeNul newtext).length : Int) = (min len.toNat (beforeNul newtext).length : Nat) := by
      omega
    rw [hcast]
    rfl
  | _ => cases h

theorem limited_refused {n : Int} (hn : 0 < n) (h : ∀ m, s.limited false n = some m → m ≤ 0)
    : s.limited false n = none ↔ s.replace = false := by
  unfold limited at h ⊢
  by_cases hover : s.replace = false ∧ n > 0 ∧ s.hardLimit ≥ 0 ∧ s.txtlen + n > s.hardLimit
  . rw [if_pos hover]
    exact iff_of_true rfl hover.1
  rw [if_neg hover] at h ⊢
  by_cases hover' : s.replace = true ∧ n > 0 ∧ s.hardLimit ≥ 0 ∧ s.editPos + n > s.hardLimit
  . rw [if_pos hover']
    exact iff_of_false (Option.some_ne_none _) (by simp [hover'.1])
  . rw [if_neg hover'] at h
    have := h n rfl
    omega

theorem insertion_keeps_iff {bytes : List UInt8} (hne : bytes ≠ []) (refresh : Bool)
    (h : ∀ n, s.deleteSelected.limited refresh bytes.length = some n → n ≤ 0)
    : insertTextBy refresh window s (some bytes) bytes.length = s
          ∧ (refresh || (s.deleteSelected.limited false bytes.length).isSome) = false
        ↔ s.replace = false ∧ s.selStart = s.selEnd ∧ refresh = false := by
  have hpos : (0 : Int) < bytes.length := by
    have := List.length_pos_iff.mpr hne
    omega
  have hreplace : s.deleteSelected.replace = s.replace := by
    unfold deleteSelected
    split <;> rfl
  cases refresh with
  | true => simp
  | false =>
    have hlimited := limited_refused hpos h
    rw [hreplace] at hlimited
    rw [Bool.false_or, Option.isSome_eq_false_iff, Option.isNone_iff_eq_none, hlimited]
    constructor
    . rintro ⟨heq, hinsert⟩
      refine ⟨hinsert, ?_, rfl⟩
      by_contra hsel
      rw [← hlimited] at hinsert
      simp only [insertTextBy, reduceCtorEq, and_false, if_false, hinsert] at heq
      have hend : s.deleteSelected.selEnd = s.selStart := by
        rw [deleteSelected, if_pos hsel]
      rw [heq] at hend
      exact hsel hend.symm
    rintro ⟨hinsert, hsel, -⟩
    refine ⟨?_, hinsert⟩
    rw [← hlimited] at hinsert
    simp only [insertTextBy, reduceCtorEq, and_false, if_false, hinsert]
    exact deleteSelected_none hsel

/-- When a refused edit leaves the control and its parent alone. -/
theorem refused_keeps_iff (window : SlWindow) (s : SlEdit) (edit : Edit)
    : (s.Refused window edit → s.edited window edit = s ∧ s.notifies window edit = false)
        ↔ (s.Refused window edit → s.KeepsText window edit) := by
  apply imp_congr_right
  intro hrefused
  cases edit with
  | setTextNoMem str => simp [notifies, KeepsText]
  | message m =>
    cases m
    case setText => simp [notifies, KeepsText]
    all_goals
      obtain ⟨bytes, hbytes, hne, hlimited⟩ := hrefused
      simp only [edited, notifies, KeepsText, hbytes, onMessage_insertion hbytes]
      exact insertion_keeps_iff hne _ hlimited

/-- Three letters are pasted over the first of two, when there is room for two. -/
theorem not_refused_keeps
    : ¬∀ (window : SlWindow) (s : SlEdit) (edit : Edit),
      s.Refused window edit → s.edited window edit = s ∧ s.notifies window edit = false := by
  intro h
  have hsel := (h (gbWindow .left) { twoLetters with selStart := 0, selEnd := 1, hardLimit := 2 }
    (.message (.paste [0x63, 0x64, 0x65])) ⟨_, rfl, by decide, fun n hn => by cases hn⟩).1
  exact absurd (congrArg selEnd hsel) (by decide)

end MiniGui.SlEdit
