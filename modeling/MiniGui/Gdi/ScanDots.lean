import MiniGui.Gdi.ScanClip

namespace MiniGui

variable {step : Int} {ps : List (Int × Int)} {y : Int}

theorem mem_strokes (h : 0 < step) (fuel : Nat) (p w : Int) (hfuel : w ≤ fuel)
    : y ∈ strokes step fuel p w ↔ p ≤ y ∧ y < p + w ∧ (y - p) % step = 0 := by
  induction fuel generalizing p w with
  | zero =>
    simp only [strokes, List.not_mem_nil, false_iff]
    omega
  | succ fuel ih =>
    simp only [strokes]
    split
    . next hw =>
      rw [List.mem_cons, ih (p + step) (w - step) (by omega)]
      have hmod : (y - (p + step)) % step = (y - p) % step := by
        rw [← Int.sub_sub, Int.sub_emod_right]
      rw [hmod]
      constructor
      . intro hy
        rcases hy with hy | hy
        . rw [hy]
          simp
          omega
        . refine ⟨by omega, by omega, hy.2.2⟩
      intro hy
      by_cases hyp : y = p
      . exact .inl hyp
      have hstep : p + step ≤ y := by
        have hdvd := Int.dvd_of_emod_eq_zero hy.2.2
        have hle := Int.le_of_dvd (by omega) hdvd
        omega
      exact .inr ⟨hstep, by omega, hy.2.2⟩
    . next hw =>
      simp only [List.not_mem_nil, false_iff]
      omega

theorem strokes_sorted (h : 0 < step) (fuel : Nat) (p w : Int) : (strokes step fuel p w).Pairwise (· < ·) := by
  have hge : ∀ fuel p w, ∀ q ∈ strokes step fuel p w, p ≤ q := by
    intro fuel
    induction fuel with
    | zero => simp [strokes]
    | succ fuel ih =>
      intro p w q hq
      simp only [strokes] at hq
      split at hq
      . rcases List.mem_cons.mp hq with heq | hmem
        . omega
        . have hle := ih _ _ q hmem
          omega
      . simp at hq
  induction fuel generalizing p w with
  | zero => simp [strokes]
  | succ fuel ih =>
    simp only [strokes]
    split
    . rw [List.pairwise_cons]
      refine ⟨?_, ih _ _⟩
      intro q hq
      have hle := hge _ _ _ q hq
      omega
    . simp

def SegOk (step a b : Int) : Prop :=
  step = 2 → a % 2 = 0 ∨ (0 ≤ a ∧ (b % 2 = 0 ∨ b ≤ a)) ∨ b < a - 1

instance (step a b : Int) : Decidable (SegOk step a b) :=
  inferInstanceAs (Decidable (_ → _))

theorem mem_dots_one (a b : Int) : y ∈ dots 1 a (b - a) ↔ a ≤ y ∧ y < b := by
  simp only [dots, Int.tmod_one]
  rw [mem_strokes (by omega) _ _ _ (by omega)]
  simp

theorem tmod_two (a : Int) : a.tmod 2 = if a % 2 = 0 then 0 else if 0 ≤ a then 1 else -1 := by
  rcases lt_or_ge a 0 with h | h
  . have hneg := Int.neg_tmod (-a) 2
    rw [Int.neg_neg] at hneg
    rw [hneg, Int.tmod_eq_emod_of_nonneg (by omega)]
    split <;> omega
  . rw [Int.tmod_eq_emod_of_nonneg h]
    split <;> omega

theorem mem_dots_two (a b : Int) : y ∈ dots 2 a (b - a)
        ↔
      y % 2 = 0 ∧ (if a % 2 = 0 then a ≤ y ∧ y < b
        else if 0 ≤ a then a < y ∧ y < b - 1
        else a - 1 ≤ y ∧ y < b + 1) := by
  simp only [dots, tmod_two]
  rw [mem_strokes (by omega) _ _ _ (by omega)]
  split
  . omega
  . split
    . omega
    . omega

section

variable (hstep : step = 1 ∨ step = 2)
include hstep

theorem dots_nodup (p w : Int) : (dots step p w).Nodup := by
  have hsorted := @strokes_sorted step (by omega)
  unfold dots
  apply List.Pairwise.imp _ (hsorted _ _ _)
  intro a b h
  omega

theorem SegOk.mem_dots {a b : Int} (h : SegOk step a b)
    : y ∈ dots step a (b - a) ↔ (a ≤ y ∧ y < b) ∧ y % step = 0 := by
  rcases hstep with hstep | hstep
  . rw [hstep, mem_dots_one]
    simp
  have hok := h hstep
  rw [hstep, mem_dots_two]
  split
  . omega
  . split
    . omega
    . omega

def written (step : Int) (ps : List (Int × Int)) : List Int :=
  ps.flatMap (fun s => dots step s.1 (s.2 - s.1))

theorem mem_written_of_ok (hok : ∀ s ∈ ps, SegOk step s.1 s.2)
    : y ∈ written step ps ↔ (∃ s ∈ ps, s.1 ≤ y ∧ y < s.2) ∧ y % step = 0 := by
  simp only [written, List.mem_flatMap]
  constructor
  . rintro ⟨s, hs, hy⟩
    rw [(hok s hs).mem_dots hstep] at hy
    exact ⟨⟨s, hs, hy.1⟩, hy.2⟩
  rintro ⟨⟨s, hs, hy⟩, hmod⟩
  refine ⟨s, hs, ?_⟩
  rw [(hok s hs).mem_dots hstep]
  exact ⟨hy, hmod⟩

theorem written_nodup_of_ok (hok : ∀ s ∈ ps, SegOk step s.1 s.2)
    (hsorted : ps.Pairwise (fun s t => s.1 < s.2 ∧ s.2 ≤ t.1)) : (written step ps).Nodup := by
  rw [written, List.nodup_flatMap]
  constructor
  . intro s hs
    apply dots_nodup hstep
  apply List.Pairwise.imp_of_mem _ hsorted
  intro s t hs ht hle y hys hyt
  rw [(hok s hs).mem_dots hstep] at hys
  rw [(hok t ht).mem_dots hstep] at hyt
  omega

end

theorem not_segOk {a b : Int} (h : ¬SegOk step a b) : step = 2 ∧ a % 2 = 1
        ∧ ((0 ≤ a ∧ (b - 1) % 2 = 0 ∧ a < b - 1 ∧ b - 1 ∉ dots 2 a (b - a)) ∨ (a < 0 ∧ a - 1 ∈ dots 2 a (b - a))) := by
  unfold SegOk at h
  push Not at h
  have hmod : a % 2 = 1 := by omega
  refine ⟨h.1, hmod, ?_⟩
  rcases lt_or_ge a 0 with hneg | hpos
  . apply Or.inr
    rw [mem_dots_two, if_neg (by omega), if_neg (by omega)]
    omega
  . apply Or.inl
    rw [mem_dots_two, if_neg (by omega), if_pos hpos]
    omega

theorem not_exact_of_first {pre post : List (Int × Int)} {s : Int × Int} {extra : Int → Prop}
    (hstep : step = 1 ∨ step = 2)
    (hsorted : (pre ++ s :: post).Pairwise (fun s t => s.1 < s.2 ∧ s.2 ≤ t.1)) (hextra : ∀ y, extra y → s.1 < s.2 ∧ s.2 ≤ y)
    (hpre : ∀ t ∈ pre, SegOk step t.1 t.2) (hs : ¬SegOk step s.1 s.2)
    (hnodup : (written step (pre ++ s :: post)).Nodup)
    (hmem : ∀ y, y ∈ written step (pre ++ s :: post)
      ↔ ((∃ t ∈ pre ++ s :: post, t.1 ≤ y ∧ y < t.2) ∨ extra y) ∧ y % step = 0)
    : False := by
  rcases not_segOk hs with ⟨htwo, hodd, hcases⟩
  rw [List.pairwise_append, List.pairwise_cons] at hsorted
  have hsplit : written step (pre ++ s :: post)
      = written step pre ++ (dots step s.1 (s.2 - s.1) ++ written step post) := by
    simp [written]
  rcases hcases with ⟨hpos, heven, hinside, hleft⟩ | ⟨hneg, hfront⟩
  . -- The last dot is in no other segment, and a segment further right has no dots in front of it.
    have hexp := (hmem (s.2 - 1)).mpr ⟨.inl ⟨s, by simp, by omega, by omega⟩, by rw [htwo]; exact heven⟩
    rw [hsplit, List.mem_append, List.mem_append] at hexp
    rcases hexp with hexp | hexp | hexp
    . rw [mem_written_of_ok hstep hpre] at hexp
      rcases hexp.1 with ⟨t, ht, hy⟩
      have hle := hsorted.2.2 t ht s (by simp)
      omega
    . rw [htwo] at hexp
      exact hleft hexp
    simp only [written, List.mem_flatMap] at hexp
    rcases hexp with ⟨t, ht, hy⟩
    have hle := hsorted.2.1.1 t ht
    rw [htwo, mem_dots_two] at hy
    split at hy
    . omega
    . rw [if_pos (by omega)] at hy
      omega
  -- The dot in front is in a segment further left, so that it is written twice.
  have hwritten : s.1 - 1 ∈ written step (pre ++ s :: post) := by
    rw [hsplit, List.mem_append, List.mem_append, htwo]
    exact .inr (.inl hfront)
  have hexp := (hmem (s.1 - 1)).mp hwritten
  rcases hexp with ⟨⟨t, ht, hy⟩ | hex, hmod⟩
  . rw [List.mem_append, List.mem_cons] at ht
    rcases ht with ht | ht | ht
    . rw [hsplit, List.nodup_append] at hnodup
      have htwice : s.1 - 1 ∈ written step pre := by
        rw [mem_written_of_ok hstep hpre]
        exact ⟨⟨t, ht, hy⟩, hmod⟩
      apply hnodup.2.2 _ htwice (s.1 - 1) _ rfl
      rw [List.mem_append, htwo]
      exact .inl hfront
    . rw [ht] at hy
      omega
    . have hle := hsorted.2.1.1 t ht
      omega
  . have hle := hextra _ hex
    omega

theorem written_exact (hstep : step = 1 ∨ step = 2)
    (hsorted : ps.Pairwise (fun s t => s.1 < s.2 ∧ s.2 ≤ t.1)) (extra : Int → Prop)
    (hextra : ∀ y, extra y → ∀ s ∈ ps, s.1 < s.2 ∧ s.2 ≤ y) : ((written step ps).Nodup
          ∧ ∀ y, y ∈ written step ps ↔ ((∃ s ∈ ps, s.1 ≤ y ∧ y < s.2) ∨ extra y) ∧ y % step = 0)
        ↔
      (∀ s ∈ ps, SegOk step s.1 s.2) ∧ ∀ y, extra y → y % step ≠ 0 := by
  constructor
  . rintro ⟨hnodup, hmem⟩
    have hok : ∀ s ∈ ps, SegOk step s.1 s.2 := by
      let q : Int × Int → Bool := fun s => SegOk step s.1 s.2
      cases hrest : ps.dropWhile q with
      | nil =>
        rw [List.dropWhile_eq_nil_iff] at hrest
        simpa [q] using hrest
      | cons s post =>
        have hsplit : ps = ps.takeWhile q ++ s :: post := by
          rw [← hrest, List.takeWhile_append_dropWhile]
        have hbad : ¬SegOk step s.1 s.2 := by
          have hnot := List.head?_dropWhile_not q ps
          rw [hrest] at hnot
          simpa [q] using hnot
        have hpre : ∀ t ∈ ps.takeWhile q, SegOk step t.1 t.2 := by
          intro t ht
          have himp := List.mem_takeWhile_imp ht
          simpa [q] using himp
        generalize ps.takeWhile q = pre at hsplit hpre
        rw [hsplit] at hsorted hnodup hmem hextra
        exfalso
        apply not_exact_of_first hstep hsorted _ hpre hbad hnodup hmem
        intro y hy
        apply hextra y hy
        simp
    refine ⟨hok, ?_⟩
    intro y hy hmod
    have hwritten := (hmem y).mpr ⟨.inr hy, hmod⟩
    rw [mem_written_of_ok hstep hok] at hwritten
    rcases hwritten.1 with ⟨s, hs, hys⟩
    have hle := hextra y hy s hs
    omega
  rintro ⟨hok, hnone⟩
  refine ⟨written_nodup_of_ok hstep hok hsorted, ?_⟩
  intro y
  rw [mem_written_of_ok hstep hok]
  constructor
  . rintro ⟨hs, hmod⟩
    exact ⟨.inl hs, hmod⟩
  . rintro ⟨hs | hex, hmod⟩
    . exact ⟨hs, hmod⟩
    . exact absurd hmod (hnone y hex)

end MiniGui
