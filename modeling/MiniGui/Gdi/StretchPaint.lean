import Mathlib.Tactic

namespace MiniGui

open Function List

structure StretchInfo where
  w : Nat
  h : Nat
  bmWidth : Nat
  bmHeight : Nat
  -- `StretchPaintImageEx` returns on a width or a height that is not positive
  width_pos : 0 < bmWidth
  height_pos : 0 < bmHeight

namespace StretchInfo

@[irreducible]
def int (n : Int) : Int :=
  n.bmod 4294967296

def whole (n : Int) : Int :=
  n >>> (16 : Nat)

@[irreducible]
def quotient (size bmSize : Nat) : Nat :=
  size * 65536 % 4294967296 / bmSize

def factor (size bmSize : Nat) : Int :=
  int (quotient size bmSize)

structure Table where
  ys : Int → Int
  written : List Int

namespace Table

def blank : Table :=
  { ys := fun _ => 0, written := [] }

def put (t : Table) (i value : Int) : Table :=
  { ys := update t.ys i value, written := i :: t.written }

def ddaRow (yfactor yy : Int) (rows : Nat) (sy dy : Int) (t : Table) : Table × Nat × Int × Int :=
  match rows with
  | 0 => (t, 0, sy, dy)
  | rows + 1 =>
    let syint := whole sy
    let sy := int (sy + yfactor)
    if whole sy ≠ syint then
      (t, rows + 1, sy, dy)
    else
      ddaRow yfactor yy rows sy (dy + 1) (t.put yy dy)

def ddaLoop (yfactor : Int) (fuel : Nat) (rows : Nat) (yy sy dy : Int) (t : Table) : Table :=
  match fuel, rows with
  | 0, _ => t
  | _, 0 => t
  | fuel + 1, rows + 1 =>
    let (t, rows, sy, dy) := ddaRow yfactor yy rows sy (dy + 1) (t.put yy dy)
    ddaLoop yfactor fuel rows (whole sy) sy dy t

def patch (rows : Nat) (last_y sy : Int) (t : Table) : Table :=
  match rows with
  | 0 => t
  | rows + 1 =>
    if t.ys sy = 0 then patch rows last_y (sy + 1) (t.put sy last_y) else patch rows (t.ys sy) (sy + 1) t

end Table

def initTable (s : StretchInfo) : Table :=
  let t := Table.ddaLoop (factor s.h s.bmHeight) s.bmHeight s.bmHeight 0 0 0 Table.blank
  let t := (t.put 0 0).put s.h s.bmHeight
  t.patch s.h 0 0

def ddaYs (s : StretchInfo) : Option Table :=
  if s.h = s.bmHeight then none else some s.initTable

def scaleLine (xfactor : Int) (n : Nat) (sx : Int) : List Int :=
  match n with
  | 0 => []
  | n + 1 => whole sx :: scaleLine xfactor n (int (sx + xfactor))

def readPixels (s : StretchInfo) : List Int :=
  if s.w = s.bmWidth then [] else scaleLine (factor s.w s.bmWidth) s.bmWidth 0

def cbRows (s : StretchInfo) (yy : Int) : List Int :=
  match s.ddaYs with
  | none => [yy]
  | some t =>
    if t.ys (yy + 1) - t.ys yy = 0 ∧ yy ≠ 0 then
      []
    else if t.ys yy < s.bmHeight then
      (range (t.ys (yy + 1) - t.ys yy).toNat).map fun (i : Nat) => t.ys yy + (i : Int)
    else
      []

def painted (s : StretchInfo) : List Int :=
  (range s.h).flatMap fun (yy : Nat) => s.cbRows yy

structure TableOk (s : StretchInfo) (t : Table) : Prop where
  mono : ∀ i j : Int, 0 ≤ i → i ≤ j → j ≤ s.h → t.ys i ≤ t.ys j
  first : t.ys 0 = 0
  last : t.ys s.h = s.bmHeight
  written : ∀ i ∈ t.written, 0 ≤ i ∧ i ≤ s.h

structure CoversOnce (s : StretchInfo) : Prop where
  table : ∀ t, s.ddaYs = some t → s.TableOk t
  rows : ∀ row : Int, s.painted.count row = if 0 ≤ row ∧ row < s.bmHeight then 1 else 0
  pixels : ∀ i ∈ s.readPixels, 0 ≤ i ∧ i < s.w

def Steps (size bmSize : Nat) : Prop :=
  size = bmSize ∨ (0 < size ∧ (bmSize - 1) * quotient size bmSize < 2147483648)

theorem whole_eq (n : Int) : whole n = n / 65536 := by
  unfold whole
  rw [Int.shiftRight_eq_div_pow]
  norm_num

theorem int_add (a b : Int) : int (int a + b) = int (a + b) := by
  unfold int
  rw [Int.bmod_add_bmod]

theorem int_of_lt {n : Int} (h0 : 0 ≤ n) (h1 : n < 2147483648) : int n = n := by
  unfold int
  rw [Int.bmod_eq_of_le] <;> omega

theorem int_zero : int 0 = 0 :=
  int_of_lt le_rfl (by norm_num)

theorem int_neg {n : Int} (h0 : 2147483648 ≤ n) (h1 : n < 4294967296) : int n < 0 := by
  unfold int
  rw [Int.bmod_def, Int.emod_eq_of_lt (by omega) (by omega), if_neg (by norm_num; omega)]
  omega

def placeOf (size bmSize k : Nat) : Int :=
  whole (int (k * factor size bmSize))

variable {k : Nat} {i : Int}

section Places

variable {size bmSize : Nat}

theorem quotient_mul_le : bmSize * quotient size bmSize ≤ size * 65536 := by
  unfold quotient
  exact (Nat.mul_div_le _ _).trans (Nat.mod_le _ _)

theorem quotient_lt (h : 2 ≤ bmSize) : quotient size bmSize < 2147483648 := by
  unfold quotient
  rw [Nat.div_lt_iff_lt_mul (by omega)]
  have := Nat.mod_lt (size * 65536) (show 4294967296 > 0 by norm_num)
  omega

theorem int_mul_factor (k : Nat) : int (k * factor size bmSize) = int ((k * quotient size bmSize : Nat) : Int) := by
  unfold factor int
  rw [Int.mul_bmod_bmod]
  push_cast
  rfl

theorem int_step (k : Nat)
    : int (int (k * factor size bmSize) + factor size bmSize) = int ((k + 1 : Nat) * factor size bmSize) := by
  rw [int_add]
  push_cast
  ring_nf

theorem steps_le {k : Nat} (hk : k < bmSize) : k * quotient size bmSize ≤ (bmSize - 1) * quotient size bmSize :=
  Nat.mul_le_mul_right _ (by omega)

theorem placeOf_eq (hk : k < bmSize) (h : (bmSize - 1) * quotient size bmSize < 2147483648)
    : placeOf size bmSize k = ((k * quotient size bmSize / 65536 : Nat) : Int) := by
  have hle := @steps_le size bmSize k hk
  unfold placeOf
  rw [int_mul_factor, int_of_lt (by omega) (by omega), whole_eq]
  omega

theorem placeOf_mono {j : Nat} (hk : k < bmSize) (hjk : j ≤ k)
    (h : (bmSize - 1) * quotient size bmSize < 2147483648) : placeOf size bmSize j ≤ placeOf size bmSize k := by
  rw [placeOf_eq (by omega) h, placeOf_eq hk h]
  have := Nat.mul_le_mul_right (quotient size bmSize) hjk
  omega

theorem placeOf_range (hsize : 0 < size) (hk : k < bmSize)
    (h : (bmSize - 1) * quotient size bmSize < 2147483648)
    : 0 ≤ placeOf size bmSize k ∧ placeOf size bmSize k < size := by
  rw [placeOf_eq hk h]
  refine ⟨by omega, ?_⟩
  have hle := @quotient_mul_le size bmSize
  have hmul : (k + 1) * quotient size bmSize ≤ bmSize * quotient size bmSize := Nat.mul_le_mul_right _ hk
  rw [Nat.add_mul] at hmul
  have hlt : k * quotient size bmSize < size * 65536 := by
    rcases Nat.eq_zero_or_pos (quotient size bmSize) with hzero | hpos
    . rw [hzero]
      omega
    . omega
  omega

theorem exists_placeOf_neg (h : 2147483648 ≤ (bmSize - 1) * quotient size bmSize)
    : ∃ k < bmSize, placeOf size bmSize k < 0 := by
  have hsize : 2 ≤ bmSize := by
    by_contra hsmall
    rw [show bmSize - 1 = 0 by omega] at h
    omega
  have hlt := @quotient_lt size bmSize hsize
  have hex : ∃ k, 2147483648 ≤ k * quotient size bmSize := ⟨bmSize - 1, h⟩
  classical
  have hspec := Nat.find_spec hex
  have hmin := fun m => @Nat.find_min _ _ hex m
  have hle := Nat.find_min' hex h
  generalize Nat.find hex = k at hspec hmin hle
  refine ⟨k, by omega, ?_⟩
  obtain ⟨j, rfl⟩ : ∃ j, k = j + 1 := Nat.exists_eq_succ_of_ne_zero (by
    rintro rfl
    omega)
  have hbefore := hmin j (by omega)
  rw [Nat.add_mul] at hspec
  unfold placeOf
  rw [int_mul_factor, Nat.add_mul, whole_eq]
  have hneg := @int_neg ((j * quotient size bmSize + 1 * quotient size bmSize : Nat) : Int) (by omega) (by omega)
  omega

end Places

namespace Table

def filled (size bmSize n : Nat) : Table :=
  match n with
  | 0 => blank
  | n + 1 => (filled size bmSize n).put (placeOf size bmSize n) n

theorem put_self (t : Table) (i value : Int) : (t.put i value).ys i = value :=
  update_self _ _ _

theorem put_of_ne (t : Table) (value : Int) {j : Int} (h : j ≠ i) : (t.put i value).ys j = t.ys j :=
  update_of_ne h _ _

variable {size bmSize : Nat}

theorem ddaRow_spec (rows k : Nat)
    : ∃ j ≤ rows, ∃ sy, ddaRow (factor size bmSize) (placeOf size bmSize k) rows (int (k * factor size bmSize)) (k + 1)
          (filled size bmSize (k + 1)) = (filled size bmSize (k + 1 + j), rows - j, sy, ((k + 1 + j : Nat) : Int))
        ∧ (j = rows ∨ sy = int ((k + 1 + j : Nat) * factor size bmSize)) := by
  induction rows generalizing k with
  | zero => exact ⟨0, le_rfl, _, rfl, Or.inl rfl⟩
  | succ rows ih =>
    unfold ddaRow
    dsimp only
    rw [int_step]
    split
    . exact ⟨0, by omega, _, rfl, Or.inr rfl⟩
    next hsame =>
      have hplace : placeOf size bmSize k = placeOf size bmSize (k + 1) := (not_not.mp hsame).symm
      obtain ⟨j, hj, sy, heq, hsy⟩ := ih (k + 1)
      refine ⟨j + 1, by omega, sy, ?_, ?_⟩
      . rw [hplace, show k + 1 + (j + 1) = k + 1 + 1 + j by omega, show rows + 1 - (j + 1) = rows - j by omega]
        exact heq
      . rw [show k + 1 + (j + 1) = k + 1 + 1 + j by omega]
        exact hsy.imp (by omega) id

theorem ddaLoop_eq {fuel rows : Nat} (h : rows ≤ fuel) (k : Nat)
    : ddaLoop (factor size bmSize) fuel rows (placeOf size bmSize k) (int (k * factor size bmSize)) k
        (filled size bmSize k) = filled size bmSize (k + rows) := by
  induction fuel generalizing rows k with
  | zero =>
    rw [Nat.le_zero.mp h]
    rfl
  | succ fuel ih =>
    cases rows with
    | zero => rfl
    | succ rows =>
      unfold ddaLoop
      obtain ⟨j, hj, sy, heq, hsy⟩ := @ddaRow_spec size bmSize rows k
      change ddaRow _ _ _ _ _ ((filled size bmSize k).put (placeOf size bmSize k) k) = _ at heq
      rw [heq]
      by_cases hend : j = rows
      . rw [show rows - j = 0 by omega, show k + (rows + 1) = k + 1 + j by omega]
        cases fuel <;> rfl
      obtain rfl := hsy.resolve_left hend
      have := ih (show rows - j ≤ fuel by omega) (k + 1 + j)
      rw [show k + 1 + j + (rows - j) = k + (rows + 1) by omega] at this
      exact this

theorem mem_written_filled {n : Nat}
    : i ∈ (filled size bmSize n).written ↔ ∃ k < n, i = placeOf size bmSize k := by
  induction n with
  | zero =>
    apply iff_of_false
    . exact not_mem_nil
    . rintro ⟨k, hk, -⟩
      omega
  | succ n ih =>
    change i ∈ placeOf size bmSize n :: (filled size bmSize n).written ↔ _
    rw [mem_cons, ih]
    constructor
    . rintro (rfl | ⟨k, hk, rfl⟩)
      . exact ⟨n, by omega, rfl⟩
      . exact ⟨k, by omega, rfl⟩
    rintro ⟨k, hk, rfl⟩
    by_cases hlast : k = n
    . rw [hlast]
      exact .inl rfl
    . exact .inr ⟨k, by omega, rfl⟩

theorem filled_ys (n : Nat) (i : Int)
    : (filled size bmSize n).ys i = 0 ∨ ∃ k < n, placeOf size bmSize k = i ∧ (filled size bmSize n).ys i = k := by
  induction n with
  | zero => exact .inl rfl
  | succ n ih =>
    change update _ _ _ _ = 0 ∨ ∃ k < n + 1, _ ∧ update _ _ _ _ = _
    by_cases hi : i = placeOf size bmSize n
    . rw [hi, update_self]
      exact .inr ⟨n, by omega, rfl, rfl⟩
    rw [update_of_ne hi]
    apply ih.imp id
    rintro ⟨k, hk, hplace, hys⟩
    exact ⟨k, by omega, hplace, hys⟩

section Patch

variable {rows : Nat} {last_y sy : Int} {t : Table}

theorem patch_outside (h : i < sy ∨ sy + rows ≤ i) : (t.patch rows last_y sy).ys i = t.ys i := by
  induction rows generalizing last_y sy t with
  | zero => rfl
  | succ rows ih =>
    unfold patch
    split
    . rw [ih (by omega)]
      exact put_of_ne t last_y (by omega)
    . exact ih (by omega)

theorem mem_written_patch (h : i ∈ (t.patch rows last_y sy).written)
    : i ∈ t.written ∨ (sy ≤ i ∧ i < sy + rows) := by
  induction rows generalizing last_y sy t with
  | zero => exact .inl h
  | succ rows ih =>
    unfold patch at h
    split at h
    . rcases ih h with hmem | hrange
      . rcases mem_cons.mp hmem with rfl | hmem
        . right
          omega
        . exact .inl hmem
      . right
        omega
    . apply (ih h).imp id
      omega

theorem written_patch (h : i ∈ t.written) : i ∈ (t.patch rows last_y sy).written := by
  induction rows generalizing last_y sy t with
  | zero => exact h
  | succ rows ih =>
    unfold patch
    split
    . exact ih (mem_cons_of_mem _ h)
    . exact ih h

structure Rising (t : Table) (rows : Nat) (last_y sy top : Int) : Prop where
  mono : ∀ i j, sy ≤ i → i ≤ j → j < sy + rows → t.ys i ≠ 0 → t.ys j ≠ 0 → t.ys i ≤ t.ys j
  above : ∀ i, sy ≤ i → i < sy + rows → t.ys i ≠ 0 → last_y ≤ t.ys i
  below : ∀ i, sy ≤ i → i < sy + rows → t.ys i ≤ top
  held : last_y ≤ top

theorem patch_rising {top : Int} (h : Rising t rows last_y sy top)
    : (∀ i j, sy ≤ i → i ≤ j → j < sy + rows → (t.patch rows last_y sy).ys i ≤ (t.patch rows last_y sy).ys j)
        ∧ ∀ i, sy ≤ i → i < sy + rows →
          last_y ≤ (t.patch rows last_y sy).ys i ∧ (t.patch rows last_y sy).ys i ≤ top := by
  induction rows generalizing last_y sy t with
  | zero =>
    constructor
    . intro i j hi hij hj
      omega
    . intro i hi hj
      omega
  | succ rows ih =>
    -- the entry at `sy` once the pass is behind it, and the pass over the others
    obtain ⟨last, t', hpatch, hat, hlast, htop, hrise⟩
        : ∃ last t', t.patch (rows + 1) last_y sy = patch rows last (sy + 1) t'
        ∧ t'.ys sy = last ∧ last_y ≤ last ∧ last ≤ top ∧ Rising t' rows last (sy + 1) top := by
      rw [patch]
      split
      next hzero =>
        have hother : ∀ i, sy + 1 ≤ i → (t.put sy last_y).ys i = t.ys i := fun i hi =>
          put_of_ne t last_y (by omega)
        refine ⟨last_y, _, rfl, put_self t sy last_y, le_rfl, h.held, ?_, ?_, ?_, h.held⟩
        . intro i j hi hij hj
          rw [hother i hi, hother j (by omega)]
          exact h.mono i j (by omega) hij (by omega)
        . intro i hi hj
          rw [hother i hi]
          exact h.above i (by omega) (by omega)
        . intro i hi hj
          rw [hother i hi]
          exact h.below i (by omega) (by omega)
      next hset =>
        refine ⟨t.ys sy, t, rfl, rfl, h.above sy le_rfl (by omega) hset, h.below sy le_rfl (by omega), ?_, ?_, ?_, ?_⟩
        . intro i j hi hij hj
          exact h.mono i j (by omega) hij (by omega)
        . intro i hi hj hne
          exact h.mono sy i le_rfl (by omega) (by omega) hset hne
        . intro i hi hj
          exact h.below i (by omega) (by omega)
        . exact h.below sy le_rfl (by omega)
    obtain ⟨hmono, hrange⟩ := ih hrise
    have hsy : (patch rows last (sy + 1) t').ys sy = last := (patch_outside (by omega)).trans hat
    rw [hpatch]
    constructor
    . intro i j hi hij hj
      by_cases hfirst : i = sy
      . rw [hfirst, hsy]
        by_cases hboth : j = sy
        . rw [hboth, hsy]
        . exact (hrange j (by omega) (by omega)).1
      . exact hmono i j (by omega) hij (by omega)
    intro i hi hj
    by_cases hfirst : i = sy
    . rw [hfirst, hsy]
      exact ⟨hlast, htop⟩
    . have := hrange i (by omega) (by omega)
      omega

end Patch

end Table

variable (s : StretchInfo)

def unpatched (s : StretchInfo) : Table :=
  ((Table.filled s.h s.bmHeight s.bmHeight).put 0 0).put s.h s.bmHeight

theorem initTable_eq : s.initTable = s.unpatched.patch s.h 0 0 := by
  have hstart := @Table.ddaLoop_eq s.h s.bmHeight s.bmHeight s.bmHeight le_rfl 0
  have hzero : int ((0 : Nat) * factor s.h s.bmHeight) = 0 := by
    rw [Nat.cast_zero, zero_mul, int_zero]
  have hplace : placeOf s.h s.bmHeight 0 = 0 := by
    unfold placeOf
    rw [hzero]
    decide
  rw [hzero, hplace, Nat.zero_add] at hstart
  unfold initTable
  exact congrArg (fun t => Table.patch s.h 0 0 ((Table.put t 0 0).put s.h s.bmHeight)) hstart

theorem placeOf_written (hk : k < s.bmHeight) : placeOf s.h s.bmHeight k ∈ s.initTable.written := by
  rw [initTable_eq]
  apply Table.written_patch
  apply mem_cons_of_mem
  apply mem_cons_of_mem
  exact Table.mem_written_filled.mpr ⟨k, hk, rfl⟩

theorem tableOk (hpos : 0 < s.h) (hlt : (s.bmHeight - 1) * quotient s.h s.bmHeight < 2147483648)
    : s.TableOk s.initTable := by
  have hpoint : ∀ i : Int, i ≠ 0 → i ≠ s.h →
      s.unpatched.ys i
        = (Table.filled s.h s.bmHeight s.bmHeight).ys i := by
    intro i h0 hh
    exact (Table.put_of_ne _ _ hh).trans (Table.put_of_ne _ _ h0)
  have hfirst : s.unpatched.ys 0 = 0 :=
    (Table.put_of_ne _ _ (by omega)).trans (Table.put_self _ _ _)
  have hlast : s.unpatched.ys s.h = s.bmHeight :=
    Table.put_self _ _ _
  have hwritten : ∀ i, i ∈ s.unpatched.written →
      0 ≤ i ∧ i ≤ s.h := by
    intro i hi
    rcases mem_cons.mp hi with rfl | hi
    . omega
    rcases mem_cons.mp hi with rfl | hi
    . omega
    obtain ⟨k, hk, rfl⟩ := Table.mem_written_filled.mp hi
    have := placeOf_range hpos hk hlt
    omega
  rw [initTable_eq]
  generalize s.unpatched = t at hpoint hfirst hlast hwritten ⊢
  have hrise : Table.Rising t s.h 0 0 s.bmHeight := by
    have hset : ∀ i : Int, 0 ≤ i → i < 0 + s.h → t.ys i = 0 ∨
        ∃ k < s.bmHeight, placeOf s.h s.bmHeight k = i ∧ t.ys i = k := by
      intro i h0 hh
      by_cases hi : i = 0
      . rw [hi]
        exact .inl hfirst
      . rw [hpoint i hi (by omega)]
        exact Table.filled_ys _ i
    refine ⟨?_, ?_, ?_, by omega⟩
    . intro i j hi hij hj hsi hsj
      obtain ⟨k, hk, hki, hys⟩ := (hset i hi (by omega)).resolve_left hsi
      obtain ⟨k', hk', hkj, hys'⟩ := (hset j (by omega) hj).resolve_left hsj
      rw [hys, hys']
      by_contra hless
      rcases eq_or_ne i j with rfl | hne
      . omega
      . have hback := placeOf_mono hk (show k' ≤ k by omega) hlt
        rw [hki, hkj] at hback
        exact hne (le_antisymm hij hback)
    . intro i hi hj hne
      obtain ⟨k, -, -, hys⟩ := (hset i hi hj).resolve_left hne
      omega
    intro i hi hj
    rcases hset i hi hj with hzero | ⟨k, hk, -, hys⟩
    . omega
    . omega
  obtain ⟨hmono, hrange⟩ := Table.patch_rising hrise
  have hend : (t.patch s.h 0 0).ys s.h = s.bmHeight := (Table.patch_outside (by omega)).trans hlast
  refine ⟨?_, ?_, hend, ?_⟩
  . intro i j hi hij hj
    by_cases hjh : j = s.h
    . rw [hjh, hend]
      by_cases hih : i = s.h
      . rw [hih, hend]
      . exact (hrange i hi (by omega)).2
    . exact hmono i j hi hij (by omega)
  . obtain ⟨n, hn⟩ := Nat.exists_eq_succ_of_ne_zero hpos.ne'
    rw [hn]
    rw [Table.patch, if_pos hfirst, Table.patch_outside (by omega)]
    exact Table.put_self _ _ _
  intro i hi
  rcases Table.mem_written_patch hi with hmem | hin
  . exact hwritten i hmem
  . omega

theorem cbRows_eq {t : Table} (ht : s.ddaYs = some t) (hok : s.TableOk t) {yy : Nat} (hyy : yy < s.h)
    : s.cbRows yy = (range (t.ys (yy + 1) - t.ys yy).toNat).map fun (i : Nat) => t.ys yy + (i : Int) := by
  have htop := hok.mono (yy + 1) s.h (by omega) (by omega) le_rfl
  rw [hok.last] at htop
  unfold cbRows
  rw [ht]
  dsimp only
  split
  next hsame =>
    rw [hsame.1]
    rfl
  next =>
    split
    . rfl
    . rw [show (t.ys (yy + 1) - t.ys yy).toNat = 0 by omega]
      rfl

theorem painted_eq {t : Table} (ht : s.ddaYs = some t) (hok : s.TableOk t)
    : s.painted = (range s.bmHeight).map fun (row : Nat) => (row : Int) := by
  have hpart : ∀ k ≤ s.h, 0 ≤ t.ys k ∧ ((range k).flatMap fun (yy : Nat) => s.cbRows yy)
      = (range (t.ys k).toNat).map fun (row : Nat) => (row : Int) := by
    intro k hk
    induction k with
    | zero =>
      rw [Nat.cast_zero, hok.first]
      exact ⟨le_rfl, rfl⟩
    | succ k ih =>
      obtain ⟨hpos, hrows⟩ := ih (by omega)
      have hmono := hok.mono k (k + 1) (by omega) (by omega) (by omega)
      push_cast
      refine ⟨by omega, ?_⟩
      rw [range_succ, flatMap_append, hrows, flatMap_singleton, cbRows_eq s ht hok (by omega),
        show (t.ys (k + 1)).toNat = (t.ys k).toNat + (t.ys (k + 1) - t.ys k).toNat by omega, range_add,
        map_append, map_map]
      congr 1
      apply map_congr_left
      intro i _
      change t.ys k + (i : Int) = (((t.ys k).toNat + i : Nat) : Int)
      omega
  have hall := (hpart s.h le_rfl).2
  rw [hok.last, Int.toNat_natCast] at hall
  exact hall

theorem count_rows (n : Nat) (row : Int)
    : ((range n).map fun (row : Nat) => (row : Int)).count row = if 0 ≤ row ∧ row < n then 1 else 0 := by
  have hnodup : ((range n).map fun (row : Nat) => (row : Int)).Nodup := nodup_range.map Nat.cast_injective
  have hmem : (row ∈ (range n).map fun (row : Nat) => (row : Int)) ↔ 0 ≤ row ∧ row < n := by
    rw [mem_map]
    constructor
    . rintro ⟨k, hk, rfl⟩
      have := mem_range.mp hk
      omega
    . rintro ⟨h0, hn⟩
      exact ⟨row.toNat, mem_range.mpr (by omega), by omega⟩
  rw [hnodup.count]
  exact if_congr hmem rfl rfl

theorem rows_covered (hok : ∀ t, s.ddaYs = some t → s.TableOk t) (row : Int)
    : s.painted.count row = if 0 ≤ row ∧ row < s.bmHeight then 1 else 0 := by
  rw [← count_rows]
  rcases hys : s.ddaYs with _ | t
  . have hsame : s.h = s.bmHeight := by
      unfold ddaYs at hys
      by_contra hne
      rw [if_neg hne] at hys
      cases hys
    unfold painted
    rw [hsame]
    unfold cbRows
    rw [hys]
    exact congrArg (count row) (flatMap_pure_eq_map (fun (row : Nat) => (row : Int)) _)
  . rw [painted_eq s hys (hok t hys)]

theorem mem_scaleLine {size bmSize n k : Nat} {i : Int}
    : i ∈ scaleLine (factor size bmSize) n (int (k * factor size bmSize))
      ↔ ∃ j < n, i = placeOf size bmSize (k + j) := by
  induction n generalizing k with
  | zero =>
    apply iff_of_false
    . exact not_mem_nil
    . rintro ⟨j, hj, -⟩
      omega
  | succ n ih =>
    unfold scaleLine
    rw [int_step, mem_cons, ih]
    constructor
    . rintro (rfl | ⟨j, hj, rfl⟩)
      . exact ⟨0, by omega, rfl⟩
      . exact ⟨j + 1, by omega, by rw [show k + 1 + j = k + (j + 1) by omega]⟩
    rintro ⟨j, hj, rfl⟩
    cases j with
    | zero => exact .inl rfl
    | succ j => exact .inr ⟨j, by omega, by rw [show k + 1 + j = k + (j + 1) by omega]⟩

theorem mem_readPixels
    : i ∈ s.readPixels ↔ s.w ≠ s.bmWidth ∧ ∃ k < s.bmWidth, i = placeOf s.w s.bmWidth k := by
  have hline := @mem_scaleLine s.w s.bmWidth s.bmWidth 0 i
  rw [Nat.cast_zero, zero_mul, int_zero] at hline
  unfold readPixels
  split
  next hsame =>
    apply iff_of_false
    . exact not_mem_nil
    . exact fun h => h.1 hsame
  next hne =>
    rw [hline]
    simp only [Nat.zero_add]
    exact (and_iff_right hne).symm

/--
A stretched image is painted once on each row, from pixels of its own, exactly when the position in it never outgrows an
`int`.
-/
theorem coversOnce_iff : s.CoversOnce ↔ Steps s.h s.bmHeight ∧ Steps s.w s.bmWidth := by
  constructor
  . intro h
    constructor
    . by_contra hsteps
      obtain ⟨hne, hbad⟩ := not_or.mp hsteps
      have hok := h.table s.initTable (if_neg hne)
      have hpos : 0 < s.h := by
        by_contra hzero
        have hlast := hok.last
        rw [show s.h = 0 by omega, Nat.cast_zero, hok.first] at hlast
        have := s.height_pos
        omega
      obtain ⟨k, hk, hneg⟩ := exists_placeOf_neg (Nat.le_of_not_lt fun hlt => hbad ⟨hpos, hlt⟩)
      have := hok.written _ (placeOf_written s hk)
      omega
    by_contra hsteps
    obtain ⟨hne, hbad⟩ := not_or.mp hsteps
    have hpos : 0 < s.w := by
      have := h.pixels _ ((mem_readPixels s).mpr ⟨hne, 0, s.width_pos, rfl⟩)
      omega
    obtain ⟨k, hk, hneg⟩ := exists_placeOf_neg (Nat.le_of_not_lt fun hlt => hbad ⟨hpos, hlt⟩)
    have := h.pixels _ ((mem_readPixels s).mpr ⟨hne, k, hk, rfl⟩)
    omega
  rintro ⟨hrows, hcols⟩
  have htable : ∀ t, s.ddaYs = some t → s.TableOk t := by
    intro t ht
    unfold ddaYs at ht
    split at ht
    . cases ht
    next hne =>
      cases ht
      obtain ⟨hpos, hlt⟩ := hrows.resolve_left hne
      exact tableOk s hpos hlt
  refine ⟨htable, rows_covered s htable, ?_⟩
  intro i hi
  obtain ⟨hne, k, hk, rfl⟩ := (mem_readPixels s).mp hi
  obtain ⟨hpos, hlt⟩ := hcols.resolve_left hne
  exact placeOf_range hpos hk hlt

def tallImage : StretchInfo where
  w := 1
  h := 49152
  bmWidth := 1
  bmHeight := 3
  width_pos := by decide
  height_pos := by decide

theorem not_coversOnce : ¬∀ s : StretchInfo, s.CoversOnce := by
  intro h
  have hne : ¬tallImage.h = tallImage.bmHeight := by decide
  have hwritten := ((h tallImage).table tallImage.initTable (if_neg hne)).written _
    (placeOf_written tallImage (show 2 < 3 by decide))
  revert hwritten
  unfold placeOf factor quotient int
  decide

end StretchInfo

end MiniGui
