import MiniGui.Gdi.LineExact

namespace MiniGui

section Division

variable {a b q : Int}

theorem floorDiv_of_pos (hb : 0 < b) : floorDiv a b = a / b := by
  unfold floorDiv
  rw [if_pos hb]
  split
  . next ha => exact Int.tdiv_eq_ediv_of_nonneg (le_of_lt ha)
  rename_i ha
  have hquot : (-a).tdiv b = (-a) / b := Int.tdiv_eq_ediv_of_nonneg (by omega)
  have hrem : (-a).tmod b = (-a) % b := Int.tmod_eq_emod_of_nonneg (by omega)
  have hsum := Int.mul_ediv_add_emod (-a) b
  have hnonneg := Int.emod_nonneg (-a) (ne_of_gt hb)
  have hlt := Int.emod_lt_of_pos (-a) hb
  rw [hquot, hrem]
  symm
  split
  . next hne =>
    have hunique : a / b = -((-a) / b) - 1 ∧ a % b = b - (-a) % b := by
      rw [Int.ediv_emod_unique hb]
      refine ⟨?_, by omega, by omega⟩
      rw [Int.mul_sub, Int.mul_neg]
      omega
    exact hunique.1
  rename_i hzero
  have hunique : a / b = -((-a) / b) - 0 ∧ a % b = 0 := by
    rw [Int.ediv_emod_unique hb]
    refine ⟨?_, le_refl _, hb⟩
    rw [Int.sub_zero, Int.mul_neg]
    omega
  exact hunique.1

theorem floorDiv_of_neg (hb : b < 0) : floorDiv a b = (-a) / (-b) := by
  rw [← floorDiv_of_pos (neg_pos.mpr hb)]
  unfold floorDiv
  rw [if_neg (not_lt.mpr (le_of_lt hb)), if_pos (neg_pos.mpr hb)]
  split
  . next ha =>
    rw [if_neg (show ¬-a > 0 by omega), neg_neg]
  rename_i ha
  split
  . rfl
  rename_i hzero
  have hnil : a = 0 := by omega
  rw [hnil]
  simp

theorem le_floorDiv_of_pos (hb : 0 < b) : q ≤ floorDiv a b ↔ q * b ≤ a := by
  rw [floorDiv_of_pos hb, Int.le_ediv_iff_mul_le hb]

theorem le_floorDiv_of_neg (hb : b < 0) : q ≤ floorDiv a b ↔ a ≤ q * b := by
  rw [floorDiv_of_neg hb, Int.le_ediv_iff_mul_le (neg_pos.mpr hb), Int.mul_neg, neg_le_neg_iff]

theorem ceilDiv_le_of_pos (hb : 0 < b) : ceilDiv a b ≤ q ↔ a ≤ q * b := by
  have hlt : ceilDiv a b ≤ q ↔ ¬q ≤ floorDiv (a - 1) b := by
    unfold ceilDiv
    rw [if_pos hb]
    omega
  rw [hlt, le_floorDiv_of_pos hb]
  omega

theorem ceilDiv_le_of_neg (hb : b < 0) : ceilDiv a b ≤ q ↔ q * b ≤ a := by
  have hlt : ceilDiv a b ≤ q ↔ ¬q ≤ floorDiv (-a - 1) (-b) := by
    unfold ceilDiv
    rw [if_neg (not_lt.mpr (le_of_lt hb))]
    omega
  rw [hlt, le_floorDiv_of_pos (neg_pos.mpr hb), Int.mul_neg]
  omega

theorem floorDiv_eq_floor (hb : b ≠ 0) : floorDiv a b = ⌊(a : ℚ) / b⌋ := by
  apply eq_of_forall_le_iff
  intro z
  rw [Int.le_floor]
  rcases lt_or_gt_of_ne hb with hneg | hpos
  . have hcast : (b : ℚ) < 0 := by exact_mod_cast hneg
    rw [le_floorDiv_of_neg hneg, le_div_iff_of_neg hcast]
    exact_mod_cast Iff.rfl
  . have hcast : (0 : ℚ) < b := by exact_mod_cast hpos
    rw [le_floorDiv_of_pos hpos, le_div_iff₀ hcast]
    exact_mod_cast Iff.rfl

end Division

structure Slant where
  u0 : Int
  v0 : Int
  du : Int
  dv : Int
  longer : dv.natAbs ≤ du.natAbs
  du_ne : du ≠ 0
  dv_ne : dv ≠ 0

namespace Slant

variable (l : Slant)

def Rising : Prop :=
  (l.du ≥ 0 ∧ l.dv ≥ 0) ∨ (l.du < 0 ∧ l.dv < 0)

instance : Decidable l.Rising :=
  inferInstanceAs (Decidable (_ ∨ _))

def minorAt (u : Int) : Int :=
  l.v0 + floorDiv (l.dv * (u - l.u0) * 2 + l.du) (2 * l.du)

def levelAt (v : Int) : Int :=
  if l.Rising then
    l.u0 + ceilDiv (l.du * ((v - l.v0) * 2 - 1)) (2 * l.dv)
  else
    l.u0 + floorDiv (l.du * ((v - l.v0) * 2 - 1)) (2 * l.dv)

variable {l}

theorem minorAt_eq_round (u : Int)
    : l.minorAt u = round ((l.v0 : ℚ) + (l.dv : ℚ) * ((u : ℚ) - l.u0) / l.du) := by
  have hdu : (l.du : ℚ) ≠ 0 := by exact_mod_cast l.du_ne
  have htwo : 2 * l.du ≠ 0 := mul_ne_zero two_ne_zero l.du_ne
  rw [minorAt, floorDiv_eq_floor htwo, round_eq, add_assoc, Int.floor_intCast_add]
  congr 2
  push_cast
  field_simp

theorem le_minorAt_iff (u v : Int) : v ≤ l.minorAt u
      ↔ (0 < l.du ∧ l.du * ((v - l.v0) * 2 - 1) ≤ 2 * l.dv * (u - l.u0))
        ∨ (l.du < 0 ∧ 2 * l.dv * (u - l.u0) ≤ l.du * ((v - l.v0) * 2 - 1)) := by
  have hshift : v ≤ l.minorAt u ↔ v - l.v0 ≤ floorDiv (l.dv * (u - l.u0) * 2 + l.du) (2 * l.du) := by
    unfold minorAt
    omega
  have hlow : l.du * ((v - l.v0) * 2 - 1) = (v - l.v0) * (2 * l.du) - l.du := by ring
  have hmid : 2 * l.dv * (u - l.u0) = l.dv * (u - l.u0) * 2 := by ring
  rw [hshift, hlow, hmid]
  rcases lt_or_gt_of_ne l.du_ne with hneg | hpos
  . rw [le_floorDiv_of_neg (by omega)]
    omega
  . rw [le_floorDiv_of_pos (by omega)]
    omega

theorem minorAt_lt_iff (u v : Int)
    : l.minorAt u < v ↔ if l.Rising then u < l.levelAt v else l.levelAt v < u := by
  have hdu := l.du_ne
  have hdv := l.dv_ne
  have hcomm : 2 * l.dv * (u - l.u0) = (u - l.u0) * (2 * l.dv) := by ring
  rw [← not_le, le_minorAt_iff, hcomm]
  unfold levelAt
  by_cases hrising : l.Rising
  . rw [if_pos hrising, if_pos hrising]
    have hplace : u < l.u0 + ceilDiv (l.du * ((v - l.v0) * 2 - 1)) (2 * l.dv)
        ↔ ¬ceilDiv (l.du * ((v - l.v0) * 2 - 1)) (2 * l.dv) ≤ u - l.u0 := by omega
    rw [hplace, not_iff_not]
    rcases hrising with ⟨hu, hv⟩ | ⟨hu, hv⟩
    . rw [ceilDiv_le_of_pos (by omega)]
      omega
    . rw [ceilDiv_le_of_neg (by omega)]
      omega
  rw [if_neg hrising, if_neg hrising]
  have hplace : l.u0 + floorDiv (l.du * ((v - l.v0) * 2 - 1)) (2 * l.dv) < u
      ↔ ¬u - l.u0 ≤ floorDiv (l.du * ((v - l.v0) * 2 - 1)) (2 * l.dv) := by omega
  rw [hplace, not_iff_not]
  unfold Rising at hrising
  rcases lt_or_gt_of_ne hdv with hneg | hpos
  . rw [le_floorDiv_of_neg (by omega)]
    omega
  . rw [le_floorDiv_of_pos (by omega)]
    omega

theorem minorAt_step (u : Int) : l.minorAt (u + 1) ≤ l.minorAt u + 1 ∧ l.minorAt u ≤ l.minorAt (u + 1) + 1 := by
  have hlonger := l.longer
  have hexpand : 2 * l.dv * (u + 1 - l.u0) = 2 * l.dv * (u - l.u0) + 2 * l.dv := by ring
  constructor
  . have hself := (le_minorAt_iff (u + 1) (l.minorAt (u + 1))).mp (le_refl _)
    have hlevel : l.du * ((l.minorAt (u + 1) - 1 - l.v0) * 2 - 1)
        = l.du * ((l.minorAt (u + 1) - l.v0) * 2 - 1) - 2 * l.du := by ring
    have hstep : l.minorAt (u + 1) - 1 ≤ l.minorAt u := by
      rw [le_minorAt_iff, hlevel]
      rw [hexpand] at hself
      omega
    omega
  have hself := (le_minorAt_iff u (l.minorAt u)).mp (le_refl _)
  have hlevel : l.du * ((l.minorAt u - 1 - l.v0) * 2 - 1) = l.du * ((l.minorAt u - l.v0) * 2 - 1) - 2 * l.du := by
    ring
  have hstep : l.minorAt u - 1 ≤ l.minorAt (u + 1) := by
    rw [le_minorAt_iff, hlevel, hexpand]
    omega
  omega

theorem minorAt_levelAt (v : Int)
    : l.minorAt (l.levelAt v) = v ∧ l.minorAt (if l.Rising then l.levelAt v - 1 else l.levelAt v + 1) = v - 1 := by
  by_cases hrising : l.Rising
  . have hat := minorAt_lt_iff (l := l) (l.levelAt v) v
    have hnext := minorAt_lt_iff (l := l) (l.levelAt v - 1) v
    have hstep := minorAt_step (l := l) (l.levelAt v - 1)
    rw [if_pos hrising] at hat hnext ⊢
    rw [sub_add_cancel] at hstep
    omega
  have hat := minorAt_lt_iff (l := l) (l.levelAt v) v
  have hnext := minorAt_lt_iff (l := l) (l.levelAt v + 1) v
  have hstep := minorAt_step (l := l) (l.levelAt v)
  rw [if_neg hrising] at hat hnext ⊢
  omega

end Slant

def Splits (p : Int → Prop) (place : Int) : Prop :=
  (∀ t, p t ↔ t < place) ∨ ∀ t, p t ↔ place < t

theorem Splits.congr {p q : Int → Prop} {place : Int} (h : Splits p place) (hpq : ∀ t, q t ↔ p t) : Splits q place := by
  rcases h with h | h
  . exact .inl fun t => (hpq t).trans (h t)
  . exact .inr fun t => (hpq t).trans (h t)

namespace Slant

variable (l : Slant)

def along (t : Int) : Int :=
  if 0 < l.du then l.u0 + t else l.u0 - t

def across (t : Int) : Int :=
  l.minorAt (l.along t)

variable {l}

theorem minorAt_mono : (l.Rising → Monotone l.minorAt) ∧ (¬l.Rising → Antitone l.minorAt) := by
  constructor
  . intro hrising a b hab
    by_contra hlt
    have hb := minorAt_lt_iff (l := l) b (l.minorAt a)
    have ha := minorAt_lt_iff (l := l) a (l.minorAt a)
    rw [if_pos hrising] at hb ha
    omega
  intro hrising a b hab
  by_contra hlt
  have hb := minorAt_lt_iff (l := l) b (l.minorAt b)
  have ha := minorAt_lt_iff (l := l) a (l.minorAt b)
  rw [if_neg hrising] at hb ha
  omega

theorem along_mono : Monotone l.along ∨ Antitone l.along := by
  unfold along
  by_cases h : 0 < l.du
  . left
    intro a b hab
    dsimp only
    rw [if_pos h, if_pos h]
    omega
  right
  intro a b hab
  dsimp only
  rw [if_neg h, if_neg h]
  omega

theorem across_mono : Monotone l.across ∨ Antitone l.across := by
  have hminor := minorAt_mono (l := l)
  by_cases hrising : l.Rising
  . rcases along_mono (l := l) with h | h
    . exact .inl ((hminor.1 hrising).comp h)
    . exact .inr ((hminor.1 hrising).comp_antitone h)
  . rcases along_mono (l := l) with h | h
    . exact .inr ((hminor.2 hrising).comp_monotone h)
    . exact .inl ((hminor.2 hrising).comp h)

theorem exists_along (u : Int) : ∃ t, l.along t = u := by
  unfold along
  split
  . exact ⟨u - l.u0, by omega⟩
  . exact ⟨l.u0 - u, by omega⟩

theorem splits_lt (t0 : Int) : Splits (fun t => l.along t < l.along t0) t0 := by
  unfold Splits along
  by_cases h : 0 < l.du
  . left
    intro t
    dsimp only
    rw [if_pos h, if_pos h]
    omega
  right
  intro t
  dsimp only
  rw [if_neg h, if_neg h]
  omega

theorem splits_gt (t0 : Int) : Splits (fun t => l.along t0 < l.along t) t0 := by
  unfold Splits along
  by_cases h : 0 < l.du
  . right
    intro t
    dsimp only
    rw [if_pos h, if_pos h]
    omega
  left
  intro t
  dsimp only
  rw [if_neg h, if_neg h]
  omega

theorem along_below (v : Int) : ∃ t0, l.along t0 = v ∧ Splits (fun t => l.along t < v) t0 := by
  obtain ⟨t0, h⟩ := exists_along (l := l) v
  refine ⟨t0, h, ?_⟩
  rw [← h]
  exact splits_lt t0

theorem along_above (v : Int) : ∃ t0, l.along t0 = v - 1 ∧ Splits (fun t => v ≤ l.along t) t0 := by
  obtain ⟨t0, h⟩ := exists_along (l := l) (v - 1)
  refine ⟨t0, h, (splits_gt (l := l) t0).congr ?_⟩
  intro t
  omega

theorem across_below (v : Int)
    : ∃ t0, l.along t0 = l.levelAt v ∧ l.across t0 = v ∧ Splits (fun t => l.across t < v) t0 := by
  obtain ⟨t0, h⟩ := exists_along (l := l) (l.levelAt v)
  refine ⟨t0, h, ?_, ?_⟩
  . rw [across, h]
    exact (minorAt_levelAt v).1
  by_cases hrising : l.Rising
  . apply (splits_lt (l := l) t0).congr
    intro t
    have hlt := minorAt_lt_iff (l := l) (l.along t) v
    rw [if_pos hrising] at hlt
    rw [h]
    exact hlt
  apply (splits_gt (l := l) t0).congr
  intro t
  have hlt := minorAt_lt_iff (l := l) (l.along t) v
  rw [if_neg hrising] at hlt
  rw [h]
  exact hlt

theorem across_above (v : Int)
    : ∃ t0, l.along t0 = (if l.Rising then l.levelAt v - 1 else l.levelAt v + 1) ∧ l.across t0 = v - 1
      ∧ Splits (fun t => v ≤ l.across t) t0 := by
  obtain ⟨t0, h⟩ := exists_along (l := l) (if l.Rising then l.levelAt v - 1 else l.levelAt v + 1)
  refine ⟨t0, h, ?_, ?_⟩
  . rw [across, h]
    exact (minorAt_levelAt v).2
  by_cases hrising : l.Rising
  . rw [if_pos hrising] at h
    apply (splits_gt (l := l) t0).congr
    intro t
    have hlt := minorAt_lt_iff (l := l) (l.along t) v
    rw [if_pos hrising] at hlt
    show v ≤ l.minorAt (l.along t) ↔ l.along t0 < l.along t
    omega
  rw [if_neg hrising] at h
  apply (splits_lt (l := l) t0).congr
  intro t
  have hlt := minorAt_lt_iff (l := l) (l.along t) v
  rw [if_neg hrising] at hlt
  show v ≤ l.minorAt (l.along t) ↔ l.along t < l.along t0
  omega

theorem along_zero : l.along 0 = l.u0 := by
  unfold along
  split <;> omega

theorem along_last : l.along l.du.natAbs = l.u0 + l.du := by
  unfold along
  split <;> omega

theorem along_between {t : Int} (h : min l.u0 (l.u0 + l.du) ≤ l.along t ∧ l.along t ≤ max l.u0 (l.u0 + l.du))
    : 0 ≤ t ∧ t ≤ l.du.natAbs := by
  unfold along at h
  split at h <;> omega

theorem minorAt_ends : l.minorAt l.u0 = l.v0 ∧ l.minorAt (l.u0 + l.du) = l.v0 + l.dv := by
  have hdu : (l.du : ℚ) ≠ 0 := by exact_mod_cast l.du_ne
  constructor
  . rw [minorAt_eq_round, sub_self, mul_zero, zero_div, add_zero, round_intCast]
  rw [minorAt_eq_round]
  push_cast
  rw [add_sub_cancel_left, mul_div_cancel_right₀ _ hdu]
  exact_mod_cast round_intCast (α := ℚ) (l.v0 + l.dv)

end Slant

namespace LineEnds

def Ideal (line : LineEnds) (p : Int × Int) : Prop :=
  let dx := line.x1 - line.x0
  let dy := line.y1 - line.y0
  if dx.natAbs > dy.natAbs then
    (min line.x0 line.x1 ≤ p.1 ∧ p.1 ≤ max line.x0 line.x1)
      ∧ p.2 = round ((line.y0 : ℚ) + (dy : ℚ) * ((p.1 : ℚ) - line.x0) / dx)
  else
    (min line.y0 line.y1 ≤ p.2 ∧ p.2 ≤ max line.y0 line.y1)
      ∧ p.1 = round ((line.x0 : ℚ) + (dx : ℚ) * ((p.2 : ℚ) - line.y0) / dy)

structure Path (line : LineEnds) (px py : Int → Int) (last : Int) : Prop where
  xMono : Monotone px ∨ Antitone px
  yMono : Monotone py ∨ Antitone py
  start : line.x0 = px 0 ∧ line.y0 = py 0
  stop : line.x1 = px last ∧ line.y1 = py last
  left : ∀ cliprc code, code.left = true →
    ∃ t, line.crossing cliprc code = (px t, py t) ∧ px t = cliprc.left ∧ Splits (fun t => px t < cliprc.left) t
  right : ∀ cliprc code, code.left = false → code.right = true →
    ∃ t, line.crossing cliprc code = (px t, py t) ∧ px t = cliprc.right - 1 ∧ Splits (fun t => cliprc.right ≤ px t) t
  top : ∀ cliprc code, code.left = false → code.right = false → code.top = true →
    ∃ t, line.crossing cliprc code = (px t, py t) ∧ py t = cliprc.top ∧ Splits (fun t => py t < cliprc.top) t
  bottom : ∀ cliprc code, code.left = false → code.right = false → code.top = false →
    ∃ t, line.crossing cliprc code = (px t, py t) ∧ py t = cliprc.bottom - 1 ∧ Splits (fun t => cliprc.bottom ≤ py t) t
  ideal : ∀ p, line.Ideal p → ∃ t, 0 ≤ t ∧ t ≤ last ∧ p = (px t, py t)

variable {line : LineEnds}

theorem path_of_xmajor (hy : line.y0 ≠ line.y1)
    (hmajor : (line.x1 - line.x0).natAbs > (line.y1 - line.y0).natAbs)
    : ∃ px py last, line.Path px py last := by
  let l : Slant :=
    {
      u0 := line.x0
      v0 := line.y0
      du := line.x1 - line.x0
      dv := line.y1 - line.y0
      longer := le_of_lt hmajor
      du_ne := by omega
      dv_ne := by omega
    }
  have hends := Slant.minorAt_ends (l := l)
  refine ⟨l.along, l.across, l.du.natAbs, ?_⟩
  constructor
  case xMono => exact Slant.along_mono
  case yMono => exact Slant.across_mono
  case start =>
    rw [Slant.across, Slant.along_zero]
    exact ⟨rfl, hends.1.symm⟩
  case stop =>
    rw [Slant.across, Slant.along_last, hends.2]
    show line.x1 = line.x0 + (line.x1 - line.x0) ∧ line.y1 = line.y0 + (line.y1 - line.y0)
    omega
  case left =>
    intro cliprc code hleft
    obtain ⟨t, ht, hsplits⟩ := Slant.along_below (l := l) cliprc.left
    refine ⟨t, ?_, ht, hsplits⟩
    unfold crossing
    rw [if_pos hleft]
    dsimp only
    rw [if_pos hmajor, Slant.across, ht]
    rfl
  case right =>
    intro cliprc code hleft hright
    obtain ⟨t, ht, hsplits⟩ := Slant.along_above (l := l) cliprc.right
    refine ⟨t, ?_, ht, hsplits⟩
    unfold crossing
    rw [hleft, if_neg Bool.false_ne_true, if_pos hright]
    dsimp only
    rw [if_pos hmajor, Slant.across, ht]
    rfl
  case top =>
    intro cliprc code hleft hright htop
    obtain ⟨t, hu, hv, hsplits⟩ := Slant.across_below (l := l) cliprc.top
    refine ⟨t, ?_, hv, hsplits⟩
    unfold crossing
    rw [hleft, if_neg Bool.false_ne_true, hright, if_neg Bool.false_ne_true, if_pos htop, hv, hu]
    dsimp only
    rw [if_pos hmajor]
    rfl
  case bottom =>
    intro cliprc code hleft hright htop
    obtain ⟨t, hu, hv, hsplits⟩ := Slant.across_above (l := l) cliprc.bottom
    refine ⟨t, ?_, hv, hsplits⟩
    have hlevel : (cliprc.bottom - 1 - line.y0) * 2 + 1 = (cliprc.bottom - line.y0) * 2 - 1 := by omega
    unfold crossing
    rw [hleft, if_neg Bool.false_ne_true, hright, if_neg Bool.false_ne_true, htop, if_neg Bool.false_ne_true, hv, hu]
    dsimp only
    rw [if_pos hmajor, hlevel]
    unfold Slant.levelAt
    by_cases hrising : l.Rising
    . rw [if_pos hrising, if_pos hrising, if_pos (show _ ∨ _ from hrising)]
    . rw [if_neg hrising, if_neg hrising, if_neg (show ¬(_ ∨ _) from hrising)]
  case ideal =>
    intro p hp
    unfold Ideal at hp
    dsimp only at hp
    rw [if_pos hmajor] at hp
    obtain ⟨t, ht⟩ := Slant.exists_along (l := l) p.1
    have hy : p.2 = l.across t := by
      rw [hp.2, Slant.across, ht, Slant.minorAt_eq_round]
    have hsteps := Slant.along_between (l := l) (t := t) (by
      rw [ht]
      show min line.x0 (line.x0 + (line.x1 - line.x0)) ≤ p.1 ∧ p.1 ≤ max line.x0 (line.x0 + (line.x1 - line.x0))
      rw [add_sub_cancel]
      exact hp.1)
    exact ⟨t, hsteps.1, hsteps.2, Prod.ext ht.symm hy⟩

theorem path_of_ymajor (hx : line.x0 ≠ line.x1)
    (hmajor : ¬(line.x1 - line.x0).natAbs > (line.y1 - line.y0).natAbs)
    : ∃ px py last, line.Path px py last := by
  let l : Slant :=
    {
      u0 := line.y0
      v0 := line.x0
      du := line.y1 - line.y0
      dv := line.x1 - line.x0
      longer := not_lt.mp hmajor
      du_ne := by omega
      dv_ne := by omega
    }
  have hends := Slant.minorAt_ends (l := l)
  have hslope : l.Rising ↔ (line.x1 - line.x0 ≥ 0 ∧ line.y1 - line.y0 ≥ 0)
      ∨ (line.x1 - line.x0 < 0 ∧ line.y1 - line.y0 < 0) := or_congr and_comm and_comm
  refine ⟨l.across, l.along, l.du.natAbs, ?_⟩
  constructor
  case xMono => exact Slant.across_mono
  case yMono => exact Slant.along_mono
  case start =>
    rw [Slant.across, Slant.along_zero]
    exact ⟨hends.1.symm, rfl⟩
  case stop =>
    rw [Slant.across, Slant.along_last, hends.2]
    show line.x1 = line.x0 + (line.x1 - line.x0) ∧ line.y1 = line.y0 + (line.y1 - line.y0)
    omega
  case left =>
    intro cliprc code hleft
    obtain ⟨t, hu, hv, hsplits⟩ := Slant.across_below (l := l) cliprc.left
    refine ⟨t, ?_, hv, hsplits⟩
    unfold crossing
    rw [if_pos hleft, hv, hu]
    dsimp only
    rw [if_neg hmajor]
    unfold Slant.levelAt
    by_cases hrising : l.Rising
    . rw [if_pos hrising, if_pos (hslope.mp hrising)]
    . rw [if_neg hrising, if_neg (hrising ∘ hslope.mpr)]
  case right =>
    intro cliprc code hleft hright
    obtain ⟨t, hu, hv, hsplits⟩ := Slant.across_above (l := l) cliprc.right
    refine ⟨t, ?_, hv, hsplits⟩
    have hlevel : (cliprc.right - 1 - line.x0) * 2 + 1 = (cliprc.right - line.x0) * 2 - 1 := by omega
    unfold crossing
    rw [hleft, if_neg Bool.false_ne_true, if_pos hright, hv, hu]
    dsimp only
    rw [if_neg hmajor, hlevel]
    unfold Slant.levelAt
    by_cases hrising : l.Rising
    . rw [if_pos hrising, if_pos hrising, if_pos (hslope.mp hrising)]
    . rw [if_neg hrising, if_neg hrising, if_neg (hrising ∘ hslope.mpr)]
  case top =>
    intro cliprc code hleft hright htop
    obtain ⟨t, ht, hsplits⟩ := Slant.along_below (l := l) cliprc.top
    refine ⟨t, ?_, ht, hsplits⟩
    unfold crossing
    rw [hleft, if_neg Bool.false_ne_true, hright, if_neg Bool.false_ne_true, if_pos htop]
    dsimp only
    rw [if_neg hmajor, Slant.across, ht]
    rfl
  case bottom =>
    intro cliprc code hleft hright htop
    obtain ⟨t, ht, hsplits⟩ := Slant.along_above (l := l) cliprc.bottom
    refine ⟨t, ?_, ht, hsplits⟩
    unfold crossing
    rw [hleft, if_neg Bool.false_ne_true, hright, if_neg Bool.false_ne_true, htop, if_neg Bool.false_ne_true]
    dsimp only
    rw [if_neg hmajor, Slant.across, ht]
    rfl
  case ideal =>
    intro p hp
    unfold Ideal at hp
    dsimp only at hp
    rw [if_neg hmajor] at hp
    obtain ⟨t, ht⟩ := Slant.exists_along (l := l) p.2
    have hx : p.1 = l.across t := by
      rw [hp.2, Slant.across, ht, Slant.minorAt_eq_round]
    have hsteps := Slant.along_between (l := l) (t := t) (by
      rw [ht]
      show min line.y0 (line.y0 + (line.y1 - line.y0)) ≤ p.2 ∧ p.2 ≤ max line.y0 (line.y0 + (line.y1 - line.y0))
      rw [add_sub_cancel]
      exact hp.1)
    exact ⟨t, hsteps.1, hsteps.2, Prod.ext hx ht.symm⟩

theorem exists_path (hx : line.x0 ≠ line.x1) (hy : line.y0 ≠ line.y1) : ∃ px py last, line.Path px py last := by
  by_cases hmajor : (line.x1 - line.x0).natAbs > (line.y1 - line.y0).natAbs
  . exact path_of_xmajor hy hmajor
  . exact path_of_ymajor hx hmajor

end LineEnds

end MiniGui
