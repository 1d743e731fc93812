import MiniGui.Ext.Gif89a

namespace MiniGui

open List

structure PixelWrite where
  x : Nat
  y : Nat
  v : Byte
deriving DecidableEq

def pixelWrites (desc : ImageDesc) (xpos ypos pass : Nat) : List Byte → Option (List PixelWrite × List Byte)
  | [] => none
  | v :: vs =>
    let rest :=
      if xpos + 1 = desc.width then
        match nextRow desc ypos pass with
        | none => some ([], vs)
        | some (ypos, pass) => if ypos ≥ desc.height then some ([], vs) else pixelWrites desc 0 ypos pass vs
      else if ypos ≥ desc.height then
        some ([], vs)
      else
        pixelWrites desc (xpos + 1) ypos pass vs
    rest.map fun r => (⟨xpos, ypos, v⟩ :: r.1, r.2)

def everyRow (height step start : Nat) : List Nat :=
  range' start ((height - start + step - 1) / step) step

def interlacedRows (height : Nat) : List Nat :=
  everyRow height 8 0 ++ everyRow height 8 4 ++ everyRow height 4 2 ++ everyRow height 2 1

section Rows

-- `px x y` is the pixel of column `x` in row `y`.
variable (px : Nat → Nat → Byte) (width : Nat)

def rowPixels (y : Nat) : List Byte :=
  (List.range width).map fun x => px x y

def rowWrites (y : Nat) : List PixelWrite :=
  (List.range width).map fun x => ⟨x, y, px x y⟩

def writesOf (rows : List Nat) : List PixelWrite :=
  rows.flatMap (rowWrites px width)

end Rows

def FormsAgree (desc : ImageDesc) (px : Nat → Nat → Byte) : Prop :=
  pixelWrites { desc with interlace := false } 0 0 0 ((List.range desc.height).flatMap (rowPixels px desc.width))
      = some (writesOf px desc.width (List.range desc.height), [])
    ∧ ∃ writes, pixelWrites { desc with interlace := true } 0 0 0
        ((interlacedRows desc.height).flatMap (rowPixels px desc.width)) = some (writes, [])
      ∧ writes.Perm (writesOf px desc.width (List.range desc.height))

variable {height start step y : Nat}

theorem everyRow_nil (hstep : 0 < step) (h : height ≤ start)
    : everyRow height step start = [] := by
  rw [everyRow, Nat.div_eq_of_lt (by omega)]
  rfl

theorem everyRow_cons {height step start : Nat} (hstep : 0 < step) (h : start < height)
    : everyRow height step start = start :: everyRow height step (start + step) := by
  have hcount : (height - start + step - 1) / step = (height - (start + step) + step - 1) / step + 1 := by
    rcases Nat.le_total (start + step) height with hle | hle
    . rw [← Nat.add_div_right _ hstep]
      congr 1
      omega
    . rw [Nat.div_eq_of_lt (show height - (start + step) + step - 1 < step by omega)]
      rw [show height - start + step - 1 = (height - start - 1) + step by omega, Nat.add_div_right _ hstep,
        Nat.div_eq_of_lt (by omega)]
  rw [everyRow, hcount, range'_succ]
  rfl

theorem mem_everyRow (hstep : 0 < step)
    : y ∈ everyRow height step start ↔ ∃ i, y = start + step * i ∧ y < height := by
  rw [everyRow, mem_range']
  constructor
  . rintro ⟨i, hi, rfl⟩
    refine ⟨i, rfl, ?_⟩
    rw [Nat.lt_div_iff_mul_lt hstep] at hi
    rw [Nat.mul_comm]
    omega
  rintro ⟨i, rfl, hlt⟩
  refine ⟨i, ?_, rfl⟩
  rw [Nat.lt_div_iff_mul_lt hstep, Nat.mul_comm]
  omega

theorem everyRow_nodup (hstep : 0 < step) : (everyRow height step start).Nodup :=
  nodup_range' step hstep

theorem interlacedRows_perm (height : Nat) : (interlacedRows height).Perm (List.range height) := by
  have hmem : ∀ y, y ∈ interlacedRows height ↔ y ∈ List.range height := by
    intro y
    simp only [interlacedRows, mem_append, mem_range, mem_everyRow (show 0 < 8 by decide),
      mem_everyRow (show 0 < 4 by decide), mem_everyRow (show 0 < 2 by decide)]
    constructor
    . rintro (((⟨_, _, h⟩ | ⟨_, _, h⟩) | ⟨_, _, h⟩) | ⟨_, _, h⟩) <;> exact h
    intro h
    by_cases h2 : y % 2 = 1
    . exact .inr ⟨y / 2, by omega, h⟩
    by_cases h4 : y % 4 = 2
    . exact .inl (.inr ⟨y / 4, by omega, h⟩)
    by_cases h8 : y % 8 = 4
    . exact .inl (.inl (Or.inr ⟨y / 8, by omega, h⟩))
    . exact .inl (.inl (Or.inl ⟨y / 8, by omega, h⟩))
  have hnodup : (interlacedRows height).Nodup := by
    simp only [interlacedRows, nodup_append, mem_append, mem_everyRow (show 0 < 8 by decide),
      mem_everyRow (show 0 < 4 by decide), mem_everyRow (show 0 < 2 by decide)]
    refine ⟨⟨⟨everyRow_nodup (by decide), everyRow_nodup (by decide), ?_⟩, everyRow_nodup (by decide), ?_⟩,
      everyRow_nodup (by decide), ?_⟩
    . rintro a ⟨i, ha, _⟩ b ⟨k, hb, _⟩
      omega
    . rintro a (⟨i, ha, _⟩ | ⟨i, ha, _⟩) b ⟨k, hb, _⟩ <;> omega
    . rintro a ((⟨i, ha, _⟩ | ⟨i, ha, _⟩) | ⟨i, ha, _⟩) b ⟨k, hb, _⟩ <;> omega
  exact (perm_ext_iff_of_nodup hnodup nodup_range).mpr hmem

section Forms

variable (px : Nat → Nat → Byte) {desc : ImageDesc}

def behindRow (desc : ImageDesc) (row : Option (Nat × Nat)) (vs : List Byte) : Option (List PixelWrite × List Byte) :=
  match row with
  | none => some ([], vs)
  | some (ypos, pass) => if ypos ≥ desc.height then some ([], vs) else pixelWrites desc 0 ypos pass vs

theorem pixelWrites_from (hy : y < desc.height) (pass : Nat) (vs : List Byte) (n x : Nat)
    (hx : x + n + 1 = desc.width)
    : pixelWrites desc x y pass ((range' x (n + 1)).map (fun x => px x y) ++ vs)
      = (behindRow desc (nextRow desc y pass) vs).map fun r =>
        ((range' x (n + 1)).map (fun x => ⟨x, y, px x y⟩) ++ r.1, r.2) := by
  induction n generalizing x with
  | zero =>
    rw [range'_one, map_singleton, map_singleton, singleton_append, pixelWrites, if_pos (by omega)]
    rfl
  | succ n ih =>
    rw [range'_succ, map_cons, map_cons, cons_append, pixelWrites, if_neg (by omega),
      if_neg (by omega), ih (x + 1) (by omega), Option.map_map]
    rfl

theorem pixelWrites_row (hw : 0 < desc.width) (hy : y < desc.height) (pass : Nat) (vs : List Byte)
    : pixelWrites desc 0 y pass (rowPixels px desc.width y ++ vs)
      = (behindRow desc (nextRow desc y pass) vs).map fun r => (rowWrites px desc.width y ++ r.1, r.2) := by
  have hfrom := pixelWrites_from px hy pass vs (desc.width - 1) 0 (by omega)
  rwa [Nat.sub_add_cancel hw, ← range_eq_range'] at hfrom

theorem pixelWrites_pass (hw : 0 < desc.width) {pass : Nat} (hstep : 0 < step) {last : Option (Nat × Nat)}
    (hnext : ∀ y vs, behindRow desc (nextRow desc y pass) vs
      = if y + step ≥ desc.height then behindRow desc last vs else pixelWrites desc 0 (y + step) pass vs) (hy : y < desc.height) (vs : List Byte)
    : pixelWrites desc 0 y pass ((everyRow desc.height step y).flatMap (rowPixels px desc.width) ++ vs)
      = (behindRow desc last vs).map fun r => (writesOf px desc.width (everyRow desc.height step y) ++ r.1, r.2) := by
  induction hn : desc.height - y using Nat.strong_induction_on generalizing y with
  | _ n ih =>
    rw [everyRow_cons hstep hy, flatMap_cons, append_assoc, pixelWrites_row px hw hy, hnext, writesOf,
      flatMap_cons]
    by_cases hlast : y + step ≥ desc.height
    . rw [if_pos hlast, everyRow_nil hstep hlast, flatMap_nil, nil_append, flatMap_nil,
        append_nil]
    rw [if_neg hlast, ih (desc.height - (y + step)) (by omega) (by omega) rfl, Option.map_map]
    congr 1
    funext r
    simp [writesOf]

theorem sequential_writes (hw : 0 < desc.width) (hh : 0 < desc.height) (hseq : desc.interlace = false)
    : pixelWrites desc 0 0 0 ((List.range desc.height).flatMap (rowPixels px desc.width))
      = some (writesOf px desc.width (List.range desc.height), []) := by
  have hnext : ∀ y vs, behindRow desc (nextRow desc y 0) vs
      = if y + 1 ≥ desc.height then behindRow desc none vs else pixelWrites desc 0 (y + 1) 0 vs := by
    intro y vs
    unfold nextRow
    rw [hseq, if_neg Bool.false_ne_true]
    rfl
  have hpass := pixelWrites_pass px hw Nat.one_pos hnext hh []
  have hrows : everyRow desc.height 1 0 = List.range desc.height := by
    rw [everyRow, range_eq_range']
    simp
  rw [hrows, append_nil] at hpass
  rw [hpass, behindRow, Option.map_some, append_nil]

def passStep : Nat → Nat
  | 0 => 8
  | 1 => 8
  | 2 => 4
  | _ => 2

def nextPass : Nat → Option (Nat × Nat)
  | 0 => some (4, 1)
  | 1 => some (2, 2)
  | 2 => some (1, 3)
  | _ => none

theorem interlaced_pass (hw : 0 < desc.width) (hint : desc.interlace = true) {pass : Nat} (hpass : pass ≤ 3) {y : Nat}
    (hy : y < desc.height) (vs : List Byte)
    : pixelWrites desc 0 y pass ((everyRow desc.height (passStep pass) y).flatMap (rowPixels px desc.width) ++ vs)
      = (behindRow desc (nextPass pass) vs).map fun r =>
        (writesOf px desc.width (everyRow desc.height (passStep pass) y) ++ r.1, r.2) := by
  apply pixelWrites_pass px hw _ _ hy
  . interval_cases pass <;> decide
  intro y vs
  have hrow : nextRow desc y pass
      = if y + passStep pass ≥ desc.height then nextPass pass else some (y + passStep pass, pass) := by
    unfold nextRow
    rw [hint, if_pos rfl]
    interval_cases pass <;> rfl
  rw [hrow]
  split
  next => rfl
  next hlt => exact if_neg hlt

theorem interlaced_writes (hw : 0 < desc.width) (hh : 0 < desc.height) (hint : desc.interlace = true)
    : pixelWrites desc 0 0 0 ((interlacedRows desc.height).flatMap (rowPixels px desc.width))
      = if desc.height ≤ 4 then
          some (rowWrites px desc.width 0, (everyRow desc.height 4 2 ++ everyRow desc.height 2 1).flatMap
            (rowPixels px desc.width))
        else
          some (writesOf px desc.width (interlacedRows desc.height), []) := by
  have hpass := fun {pass : Nat} (hp : pass ≤ 3) {y : Nat} => @interlaced_pass px _ hw hint _ hp y
  have h0 := hpass (show 0 ≤ 3 by decide) hh
  have h1 := hpass (show 1 ≤ 3 by decide) (y := 4)
  have h2 := hpass (show 2 ≤ 3 by decide) (y := 2)
  have h3 := hpass (show 3 ≤ 3 by decide) (y := 1)
  simp only [passStep, nextPass, behindRow] at h0 h1 h2 h3
  unfold interlacedRows
  rw [append_assoc, append_assoc, flatMap_append, h0]
  by_cases hsmall : desc.height ≤ 4
  . rw [if_pos hsmall, if_pos hsmall, everyRow_nil (by decide) hsmall, everyRow_cons (by decide) hh,
      everyRow_nil (by decide) (by omega)]
    simp [writesOf]
  have h3' := h3 (by omega) []
  rw [append_nil] at h3'
  rw [if_neg hsmall, if_neg hsmall, flatMap_append, h1 (by omega), if_neg (by omega), flatMap_append,
    h2 (by omega), if_neg (by omega), h3']
  simp [writesOf]

/--
The rows behind the first are lost in images of two, three or four rows.
-/
theorem formsAgree_iff (desc : ImageDesc) (px : Nat → Nat → Byte) (hw : 0 < desc.width) (hh : 0 < desc.height)
    : FormsAgree desc px ↔ desc.height = 1 ∨ 5 ≤ desc.height := by
  have hseq := @sequential_writes px { desc with interlace := false } hw hh rfl
  have hint := @interlaced_writes px { desc with interlace := true } hw hh rfl
  unfold FormsAgree
  rw [and_iff_right hseq]
  rw [hint]
  by_cases hsmall : desc.height ≤ 4
  . rw [if_pos hsmall]
    constructor
    . rintro ⟨writes, heq, _⟩
      by_contra hrows
      have hleft := (Prod.mk.inj (Option.some.inj heq)).2
      rw [@everyRow_cons desc.height 2 1 (by decide) (by omega)] at hleft
      have hlen := congrArg List.length hleft
      simp [rowPixels] at hlen
      omega
    . intro hrows
      have hone : desc.height = 1 := by omega
      rw [hone]
      exact ⟨_, rfl, by simp [writesOf]⟩
  . rw [if_neg hsmall]
    apply iff_of_true _ (Or.inr (by omega))
    exact ⟨_, rfl, (interlacedRows_perm desc.height).flatMap_right _⟩

end Forms

def rowsOfOne (height : Nat) : ImageDesc where
  top := 0
  left := 0
  width := 1
  height := height
  haveColorMap := false
  bitPixel := 2
  interlace := true

theorem formsAgree_five : FormsAgree (rowsOfOne 5) fun _ y => BitVec.ofNat 8 y :=
  (formsAgree_iff (rowsOfOne 5) _ (by decide) (by decide)).mpr (Or.inr (by decide))

theorem not_formsAgree
    : ¬∀ (desc : ImageDesc) (px : Nat → Nat → Byte), 0 < desc.width → 0 < desc.height → FormsAgree desc px := by
  intro h
  obtain ⟨_, writes, heq, _⟩ := h (rowsOfOne 2) (fun _ y => BitVec.ofNat 8 y) (by decide) (by decide)
  have hfirst : pixelWrites { rowsOfOne 2 with interlace := true } 0 0 0
      ((interlacedRows 2).flatMap (rowPixels (fun _ y => BitVec.ofNat 8 y) 1)) = some ([⟨0, 0, 0⟩], [1]) := rfl
  have hleft := (Prod.mk.inj (Option.some.inj (hfirst.symm.trans heq))).2
  cases hleft

inductive Yields : Gif → List Byte → Prop where
  | nil (g : Gif) : Yields g []
  | cons {g g' : Gif} (v : Byte) (vs : List Byte) :
      lwzReadByte g = .ok (v.toNat, g') → Yields g' vs → Yields g (v :: vs)

def storePixel (desc : ImageDesc) (bits : Int → Byte) (w : PixelWrite) : Int → Byte :=
  Function.update bits ((w.y * gifPitch desc.width + w.x : Nat) : Int) w.v

theorem readPixels_writes (desc : ImageDesc) {vs left : List Byte} {writes : List PixelWrite} {xpos ypos pass : Nat}
    (hwrites : pixelWrites desc xpos ypos pass vs = some (writes, left)) (hx : xpos < desc.width)
    (hy : ypos < desc.height) {g : Gif} (hg : Yields g vs) (bits : Int → Byte) {fuel : Nat} (hfuel : vs.length ≤ fuel)
    : ∃ g', readPixels fuel desc g bits xpos ypos pass = .ok (true, writes.foldl (storePixel desc) bits, g') := by
  induction vs generalizing writes xpos ypos pass g bits fuel with
  | nil => cases hwrites
  | cons v vs ih =>
    cases hg with
    | cons _ _ hread hg =>
      rename_i g'
      obtain ⟨fuel, rfl⟩ := Nat.exists_eq_add_of_le' (Nat.le_trans (Nat.le_add_left 1 _) hfuel)
      rw [length_cons] at hfuel
      have hpitch : xpos < gifPitch desc.width := by
        unfold gifPitch
        omega
      have hin : ypos * gifPitch desc.width + xpos < desc.height * gifPitch desc.width := by
        have hle := Nat.mul_le_mul_right (gifPitch desc.width) (Nat.succ_le_of_lt hy)
        rw [Nat.succ_mul] at hle
        omega
      have hcheck : checkIndex .bits (desc.height * gifPitch desc.width)
          ((ypos * gifPitch desc.width + xpos : Nat) : Int)
          = .ok () := if_pos ⟨Int.natCast_nonneg _, by exact_mod_cast hin⟩
      have hbyte : BitVec.ofInt 8 (v.toNat : Int) = v := by simp
      rw [pixelWrites] at hwrites
      obtain ⟨⟨rest, left'⟩, hrest, heq⟩ := Option.map_eq_some_iff.mp hwrites
      obtain ⟨rfl, rfl⟩ := Prod.mk.inj heq
      rw [readPixels, hread]
      simp only [bind, Except.bind]
      rw [if_neg (by omega), hbyte]
      push_cast at hcheck
      rw [hcheck]
      by_cases hlast : xpos + 1 = desc.width
      . rw [if_pos hlast] at hrest ⊢
        cases hnext : nextRow desc ypos pass with
        | none =>
          rw [hnext] at hrest
          obtain ⟨rfl, rfl⟩ := Prod.mk.inj (Option.some.inj hrest)
          exact ⟨g', rfl⟩
        | some row =>
          rw [hnext] at hrest
          dsimp only at hrest ⊢
          by_cases hdone : row.1 ≥ desc.height
          . rw [if_pos hdone] at hrest ⊢
            obtain ⟨rfl, rfl⟩ := Prod.mk.inj (Option.some.inj hrest)
            exact ⟨g', rfl⟩
          . rw [if_neg hdone] at hrest ⊢
            exact ih hrest (by omega) (by omega) hg _ (by omega)
      . rw [if_neg hlast, if_neg (by omega)] at hrest ⊢
        exact ih hrest (by omega) hy hg _ (by omega)

end MiniGui
