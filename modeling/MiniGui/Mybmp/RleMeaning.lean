import MiniGui.Mybmp.RleCodes

/-!
What a stream of run-length codes means, what the loops over the rows make of it, and when the two agree. Column `x`
and row `y` count from the lower left corner; `four` is set for images of four bits a pixel.
-/

namespace MiniGui

open Function List

abbrev Canvas := Nat → Nat → Byte

def RleCode.values : RleCode → List Byte
  | .run count left right => (List.range count).map fun k => if k % 2 = 0 then left else right
  | .absolute pixels => pixels
  | _ => []

theorem RleCode.values_length (c : RleCode) : c.values.length = c.pixels.length := by
  cases c with
  | run count left right => simp [values, pixels]
  | absolute pixels => simp [values, RleCode.pixels]
  | endOfLine => rfl
  | endOfBitmap => rfl
  | displace dx dy => rfl

def RleCode.Valid (four : Bool) : RleCode → Prop
  | .run count left right =>
    0 < count ∧ count < 256 ∧ (if four then left.toNat < 16 ∧ right.toNat < 16 else left = right)
  | .absolute pixels => 3 ≤ pixels.length ∧ pixels.length < 256 ∧ (four → ∀ p ∈ pixels, p.toNat < 16)
  | .displace dx dy => dx < 256 ∧ dy < 256
  | _ => True

def RleCode.rows : RleCode → Nat
  | .displace _ dy => dy
  | _ => 0

def WellFormed (four : Bool) (w h : Nat) : List RleCode → Nat → Nat → Prop
  | [], _, _ => False
  | c :: cs, x, y =>
    match c.flag with
    | .end => cs = []
    | .line => y < h ∧ WellFormed four w h cs 0 (y + 1)
    | .err =>
      c.Valid four ∧ x + c.columns ≤ w ∧ y + c.rows < h ∧ WellFormed four w h cs (x + c.columns) (y + c.rows)

def meant : List RleCode → Nat → Nat → Nat → Nat → Byte
  | [], _, _, _, _ => 0
  | c :: cs, x, y, X, Y =>
    match c.flag with
    | .end => 0
    | .line => meant cs 0 (y + 1) X Y
    | .err =>
      if Y = y ∧ x ≤ X ∧ X < x + c.values.length then
        c.values.getD (X - x) 0
      else
        meant cs (x + c.columns) (y + c.rows) X Y

def putPixel (four : Bool) (px : Nat → Byte) (pos : Nat) (left right : Byte) : Nat → Byte :=
  if four then
    if pos % 2 = 0 then
      update (update px (pos + 1) 0) pos left
    else
      update px pos (px pos ||| right)
  else
    update px pos left

def putPixels (four : Bool) : (Nat → Byte) → Nat → List (Byte × Byte) → Nat → Byte
  | px, _, [] => px
  | px, pos, p :: pixels => putPixels four (putPixel four px pos p.1 p.2) (pos + 1) pixels

def decode (four carry : Bool) (h : Nat) : List RleCode → Nat → Nat → Canvas → Canvas
  | [], _, _, img => img
  | c :: cs, x, y, img =>
    match c.flag with
    | .end => img
    | .line =>
      if y + 1 < h then
        decode four carry h cs 0 (y + 1) (if carry then update img (y + 1) (img y) else img)
      else
        img
    | .err =>
      decode four carry h cs (x + c.columns) y (update img y (putPixels four (img y) x c.pixels))

def Skips (four : Bool) (a b : Nat) : Prop :=
  ∀ X, a ≤ X → X < b → four = true ∧ X % 2 = 1

def RleCode.Fills (four : Bool) (x : Nat) : RleCode → Prop
  | .displace dx dy => Skips four x (x + dx) ∧ dy = 0
  | .run _ left right => x % 2 = 1 → left = right
  | _ => True

def Complete (four : Bool) (w h : Nat) : List RleCode → Nat → Nat → Prop
  | [], _, _ => False
  | c :: cs, x, y =>
    match c.flag with
    | .end => Skips four x w ∧ y + 1 = h
    | .line => Skips four x w ∧ (y + 1 < h → Complete four w h cs 0 (y + 1))
    | .err => c.Fills four x ∧ Complete four w h cs (x + c.columns) y

section Row

variable {four : Bool} {px : Nat → Byte} {pos : Nat} {pixels : List (Byte × Byte)} {X : Nat}

theorem putPixels_lt (h : X < pos) : putPixels four px pos pixels X = px X := by
  induction pixels generalizing px pos with
  | nil => rfl
  | cons p pixels ih =>
    rw [putPixels, ih (by omega)]
    unfold putPixel
    split
    . split
      . rw [update_of_ne (by omega), update_of_ne (by omega)]
      . rw [update_of_ne (by omega)]
    . rw [update_of_ne (by omega)]

theorem putPixels_ge (h : pos + pixels.length ≤ X) : putPixels four px pos pixels X =
        if four = true ∧ X % 2 = 1 ∧ X = pos + pixels.length ∧ pixels ≠ [] then 0 else px X := by
  induction pixels generalizing px pos with
  | nil =>
    rw [if_neg (by simp)]
    rfl
  | cons p pixels ih =>
    rw [length_cons] at h
    rw [putPixels, ih (by omega), length_cons]
    unfold putPixel
    cases four with
    | false =>
      simp only [Bool.false_eq_true, false_and, if_false]
      rw [update_of_ne (by omega)]
    | true =>
      simp only [true_and, if_true]
      have hassoc : pos + (pixels.length + 1) = pos + 1 + pixels.length := by omega
      rw [hassoc]
      by_cases hlast : X % 2 = 1 ∧ X = pos + 1 + pixels.length
      . have hlong : X % 2 = 1 ∧ X = pos + 1 + pixels.length ∧ p :: pixels ≠ [] := ⟨hlast.1, hlast.2, by simp⟩
        rw [if_pos hlong]
        by_cases hnil : pixels = []
        . have hshort : ¬(X % 2 = 1 ∧ X = pos + 1 + pixels.length ∧ pixels ≠ []) := fun h => h.2.2 hnil
          have hX : X = pos + 1 := by
            rw [hlast.2, hnil]
            rfl
          have heven : pos % 2 = 0 := by omega
          rw [if_neg hshort, if_pos heven, update_of_ne (by omega), hX, update_self]
        . rw [if_pos ⟨hlast.1, hlast.2, hnil⟩]
      have hlong : ¬(X % 2 = 1 ∧ X = pos + 1 + pixels.length ∧ p :: pixels ≠ []) := fun h => hlast ⟨h.1, h.2.1⟩
      have hshort : ¬(X % 2 = 1 ∧ X = pos + 1 + pixels.length ∧ pixels ≠ []) := fun h => hlast ⟨h.1, h.2.1⟩
      rw [if_neg hlong, if_neg hshort]
      split
      next heven =>
        have hne : X ≠ pos + 1 := by
          intro hX
          have hodd : X % 2 = 1 := by omega
          omega
        rw [update_of_ne (by omega), update_of_ne hne]
      next hodd =>
        rw [update_of_ne (by omega)]

theorem putPixels_at (hclear : four = true → pos % 2 = 1 → px pos = 0) {k : Nat} (hk : k < pixels.length)
    : putPixels four px pos pixels (pos + k) =
        if four = true ∧ (pos + k) % 2 = 1 then (pixels.get ⟨k, hk⟩).2 else (pixels.get ⟨k, hk⟩).1 := by
  induction pixels generalizing px pos k with
  | nil => contradiction
  | cons p pixels ih =>
    rw [putPixels]
    cases k with
    | zero =>
      rw [Nat.add_zero, putPixels_lt (by omega)]
      unfold putPixel
      cases four with
      | false => simp
      | true =>
        by_cases heven : pos % 2 = 0
        . simp [heven]
        . have hodd : pos % 2 = 1 := by omega
          have hzero := hclear rfl hodd
          simp [hodd, hzero]
    | succ k =>
      have hassoc : pos + (k + 1) = pos + 1 + k := by omega
      have hnext : four = true → (pos + 1) % 2 = 1 → putPixel four px pos p.1 p.2 (pos + 1) = 0 := by
        intro hfour hodd
        have heven : pos % 2 = 0 := by omega
        unfold putPixel
        rw [if_pos hfour, if_pos heven, update_of_ne (by omega), update_self]
      rw [hassoc, ih hnext (by simpa using hk)]
      rfl

theorem putPixels_congr {P : Nat → Prop} {px' : Nat → Byte} (hrow : ∀ X, P X → px X = px' X)
    (hin : ∀ X, pos ≤ X → X < pos + pixels.length → P X)
    : ∀ X, P X → putPixels four px pos pixels X = putPixels four px' pos pixels X := by
  induction pixels generalizing px px' pos with
  | nil => exact hrow
  | cons p pixels ih =>
    rw [length_cons] at hin
    have hhead : ∀ X, P X → putPixel four px pos p.1 p.2 X = putPixel four px' pos p.1 p.2 X := by
      intro X hX
      have hpos := hrow pos (hin pos (Nat.le_refl _) (by omega))
      unfold putPixel
      split
      . split
        . simp only [update_apply, hrow X hX]
        . simp only [update_apply, hrow X hX, hpos]
      . simp only [update_apply, hrow X hX]
    intro X hX
    rw [putPixels, putPixels]
    apply ih hhead
    . intro X' hle hlt
      exact hin X' (by omega) (by omega)
    . exact hX

end Row

section Agree

variable {four carry : Bool} {w h x y X Y : Nat} {c : RleCode} {cs : List RleCode} {img img' : Canvas}

theorem meant_err (hflag : c.flag = .err) : meant (c :: cs) x y X Y =
        if Y = y ∧ x ≤ X ∧ X < x + c.values.length then c.values.getD (X - x) 0
        else meant cs (x + c.columns) (y + c.rows) X Y := by
  rw [meant, hflag]

theorem decode_err (hflag : c.flag = .err) : decode four carry h (c :: cs) x y img =
        decode four carry h cs (x + c.columns) y (update img y (putPixels four (img y) x c.pixels)) := by
  rw [decode, hflag]

theorem decode_line (hflag : c.flag = .line) : decode four carry h (c :: cs) x y img =
        if y + 1 < h then
          decode four carry h cs 0 (y + 1) (if carry then update img (y + 1) (img y) else img)
        else
          img := by
  rw [decode, hflag]

theorem decode_end (hflag : c.flag = .end) : decode four carry h (c :: cs) x y img = img := by
  rw [decode, hflag]

theorem RleCode.length_le_columns (hflag : c.flag = .err) : c.pixels.length ≤ c.columns := by
  cases c with
  | run count left right | absolute pixels => exact Nat.le_refl _
  | endOfLine | endOfBitmap => contradiction
  | displace dx dy => exact Nat.zero_le _

def Behind (x y X Y : Nat) : Prop :=
  y < Y ∨ (Y = y ∧ x ≤ X)

theorem decode_front (hfront : ¬Behind x y X Y) : decode four carry h cs x y img Y X = img Y X := by
  induction cs generalizing x y img with
  | nil => rfl
  | cons c cs ih =>
    unfold Behind at hfront ih
    cases hflag : c.flag with
    | «end» => rw [decode_end hflag]
    | line =>
      rw [decode_line hflag]
      split
      . rw [ih (by omega)]
        split
        . rw [update_of_ne (by omega)]
        . rfl
      . rfl
    | err =>
      rw [decode_err hflag, ih (by omega)]
      by_cases hrow : Y = y
      . rw [hrow, update_self, putPixels_lt (by omega)]
      . rw [update_of_ne hrow]

theorem meant_front (hfront : ¬Behind x y X Y) : meant cs x y X Y = 0 := by
  induction cs generalizing x y with
  | nil => rfl
  | cons c cs ih =>
    unfold Behind at hfront ih
    rw [meant]
    split
    . rfl
    . rw [ih (by omega)]
    . rw [if_neg (by omega), ih (by omega)]

theorem decode_congr (himg : ∀ X Y, Behind x y X Y → img Y X = img' Y X) (hbehind : Behind x y X Y)
    : decode four false h cs x y img Y X = decode four false h cs x y img' Y X := by
  induction cs generalizing x y img img' with
  | nil => exact himg X Y hbehind
  | cons c cs ih =>
    cases hflag : c.flag with
    | «end» =>
      rw [decode_end hflag, decode_end hflag]
      exact himg X Y hbehind
    | line =>
      rw [decode_line hflag, decode_line hflag]
      split
      . simp only [Bool.false_eq_true, if_false]
        by_cases hnext : Behind 0 (y + 1) X Y
        . apply ih _ hnext
          intro X' Y' h'
          apply himg
          unfold Behind at h' ⊢
          omega
        . rw [decode_front hnext, decode_front hnext]
          exact himg X Y hbehind
      . exact himg X Y hbehind
    | err =>
      rw [decode_err hflag, decode_err hflag]
      have hput : ∀ X', x ≤ X' →
          putPixels four (img y) x c.pixels X' = putPixels four (img' y) x c.pixels X' :=
        putPixels_congr (fun X' hX' => himg X' y (.inr ⟨rfl, hX'⟩)) fun X' hle _ => hle
      have hupdate : ∀ X' Y', Behind x y X' Y' →
          update img y (putPixels four (img y) x c.pixels) Y' X' =
            update img' y (putPixels four (img' y) x c.pixels) Y' X' := by
        intro X' Y' h'
        by_cases hrow : Y' = y
        . rw [hrow, update_self, update_self]
          unfold Behind at h'
          exact hput X' (by omega)
        . rw [update_of_ne hrow, update_of_ne hrow]
          exact himg X' Y' h'
      by_cases hnext : Behind (x + c.columns) y X Y
      . apply ih _ hnext
        intro X' Y' h'
        apply hupdate
        unfold Behind at h' ⊢
        omega
      . rw [decode_front hnext, decode_front hnext]
        exact hupdate X Y hbehind

theorem decode_lag {y' : Nat} (hwf : WellFormed four w h cs x y) (hlag : y' < y)
    : decode four false h cs x y' img (h - 1) = img (h - 1) := by
  induction cs generalizing x y y' img with
  | nil => rfl
  | cons c cs ih =>
    rw [WellFormed] at hwf
    cases hflag : c.flag with
    | «end» => rw [decode_end hflag]
    | line =>
      rw [hflag] at hwf
      rw [decode_line hflag]
      simp only [Bool.false_eq_true, if_false]
      split
      . exact ih hwf.2 (by omega)
      . rfl
    | err =>
      rw [hflag] at hwf
      obtain ⟨_, _, hrows, hwf⟩ := hwf
      rw [decode_err hflag, ih hwf (by omega), update_of_ne (by omega)]

theorem RleCode.value_eq (hvalid : c.Valid four) (hfills : c.Fills four x) {k : Nat} (hk : k < c.pixels.length)
    : (if four = true ∧ (x + k) % 2 = 1 then (c.pixels.get ⟨k, hk⟩).2 else (c.pixels.get ⟨k, hk⟩).1) =
        c.values.getD k 0 := by
  cases c with
  | run count left right =>
    have hcount : k < count := by
      simpa [RleCode.pixels] using hk
    have hget : (RleCode.run count left right).pixels.get ⟨k, hk⟩ = (left, right) := by
      simp [RleCode.pixels]
    have hvalue : (RleCode.run count left right).values.getD k 0 = if k % 2 = 0 then left else right := by
      simp [RleCode.values, hcount]
    rw [hget, hvalue]
    unfold RleCode.Valid at hvalid
    unfold RleCode.Fills at hfills
    cases four with
    | false =>
      have hsame : left = right := by simpa using hvalid.2.2
      rw [hsame]
      split <;> split <;> rfl
    | true =>
      by_cases hodd : x % 2 = 1
      . rw [hfills hodd]
        split <;> split <;> rfl
      . by_cases heven : k % 2 = 0
        . rw [if_neg (by omega), if_pos heven]
        . rw [if_pos ⟨rfl, by omega⟩, if_neg heven]
  | absolute pixels =>
    have hget : (RleCode.absolute pixels).pixels.get ⟨k, hk⟩ = (pixels.getD k 0, pixels.getD k 0) := by
      have hlt : k < pixels.length := by
        simpa [RleCode.pixels] using hk
      simp [RleCode.pixels, hlt]
    rw [hget]
    split <;> rfl
  | endOfLine | endOfBitmap | displace dx dy => contradiction

def Clear (four : Bool) (px : Nat → Byte) (x : Nat) : Prop :=
  four = true → x % 2 = 1 → px x = 0

theorem skips_clear {px : Nat → Byte} {b : Nat} (hskips : Skips four x b) (hclear : Clear four px x) (hle : x ≤ X)
    (hlt : X < b) : px X = 0 := by
  have hX := hskips X hle hlt
  by_cases hfirst : X = x
  . rw [hfirst] at hX ⊢
    exact hclear hX.1 hX.2
  . have hprev := hskips (X - 1) (by omega) (by omega)
    omega

theorem putPixels_code (hflag : c.flag = .err) (hvalid : c.Valid four) (hfills : c.Fills four x)
    (hclear : Clear four (img y) x) : Clear four (putPixels four (img y) x c.pixels) (x + c.columns)
        ∧ ∀ X, x ≤ X → X < x + c.columns → putPixels four (img y) x c.pixels X =
          if X < x + c.values.length then c.values.getD (X - x) 0 else 0 := by
  have hat : ∀ X, x ≤ X → X < x + c.pixels.length →
      putPixels four (img y) x c.pixels X = c.values.getD (X - x) 0 := by
    intro X hle hlt
    have hX : x + (X - x) = X := by omega
    have hk : X - x < c.pixels.length := by omega
    rw [← RleCode.value_eq hvalid hfills hk, ← putPixels_at hclear hk, hX]
  rw [RleCode.values_length]
  constructor
  . intro hfour hodd
    rw [putPixels_ge (by have := RleCode.length_le_columns hflag; omega)]
    split
    . rfl
    next hnot =>
      cases c with
      | displace dx dy =>
        by_cases hdx : dx = 0
        . rw [hdx] at hodd ⊢
          exact hclear hfour hodd
        have hcolumns : (RleCode.displace dx dy).columns = dx := rfl
        rw [hcolumns] at hodd
        have hskips := hfills.1 (x + dx - 1) (by omega) (by omega)
        omega
      | run count left right =>
        have hne : (RleCode.run count left right).pixels ≠ [] := by
          have hpos := hvalid.1
          simp [RleCode.pixels]
          omega
        exact absurd ⟨hfour, hodd, rfl, hne⟩ hnot
      | absolute pixels =>
        have hne : (RleCode.absolute pixels).pixels ≠ [] := by
          have hpos := hvalid.1
          simp only [RleCode.pixels, ne_eq, map_eq_nil_iff]
          intro hnil
          rw [hnil, List.length_nil] at hpos
          omega
        exact absurd ⟨hfour, hodd, rfl, hne⟩ hnot
      | endOfLine | endOfBitmap => contradiction
  intro X hle hlt
  split
  next hin => exact hat X hle hin
  next hout =>
    cases c with
    | displace dx dy => exact skips_clear hfills.1 hclear hle hlt
    | run count left right | absolute pixels => exact absurd hlt hout
    | endOfLine | endOfBitmap => contradiction

theorem RleCode.rows_eq_zero (hfills : c.Fills four x) : c.rows = 0 := by
  cases c with
  | displace dx dy => exact hfills.2
  | run count left right => rfl
  | absolute pixels => rfl
  | endOfLine => rfl
  | endOfBitmap => rfl

theorem decode_eq_meant (hwf : WellFormed four w h cs x y) (hcomplete : Complete four w h cs x y) (hy : y < h)
    (hclear : Clear four (img y) x) (hbehind : Behind x y X Y) (hX : X < w) (hY : Y < h)
    : decode four carry h cs x y img Y X = meant cs x y X Y := by
  induction cs generalizing x y img with
  | nil => exact absurd hwf (by simp [WellFormed])
  | cons c cs ih =>
    rw [WellFormed] at hwf
    rw [Complete] at hcomplete
    unfold Behind at hbehind ih
    cases hflag : c.flag with
    | «end» =>
      rw [hflag] at hcomplete
      have hrow : Y = y := by omega
      rw [decode_end hflag, meant, hflag, hrow]
      exact skips_clear hcomplete.1 hclear (by omega) hX
    | line =>
      rw [hflag] at hwf hcomplete
      rw [decode_line hflag, meant, hflag]
      by_cases hrow : Y = y
      . have hpx := skips_clear (X := X) hcomplete.1 hclear (by omega) hX
        have hfront : ¬Behind 0 (y + 1) X Y := by
          unfold Behind
          omega
        rw [meant_front hfront]
        split
        . rw [decode_front hfront]
          split
          . rw [update_of_ne (by omega), hrow, hpx]
          . rw [hrow, hpx]
        . rw [hrow, hpx]
      have hnext : y + 1 < h := by omega
      rw [if_pos hnext]
      apply ih hwf.2 (hcomplete.2 hnext) hnext
      . intro _ hodd
        omega
      . omega
    | err =>
      rw [hflag] at hwf hcomplete
      obtain ⟨hvalid, hcolumns, hrows, hwf⟩ := hwf
      obtain ⟨hfills, hcomplete⟩ := hcomplete
      have hzero := RleCode.rows_eq_zero hfills
      rw [hzero, Nat.add_zero] at hwf
      obtain ⟨hclear', hpixels⟩ := putPixels_code hflag hvalid hfills hclear
      have hle := RleCode.length_le_columns hflag
      rw [← RleCode.values_length] at hle
      rw [decode_err hflag, meant_err hflag, hzero, Nat.add_zero]
      by_cases hin : Y = y ∧ X < x + c.columns
      . have hfront : ¬Behind (x + c.columns) y X Y := by
          unfold Behind
          omega
        rw [decode_front hfront, meant_front hfront, hin.1, update_self,
          hpixels X (by omega) hin.2]
        split
        . rw [if_pos (by omega)]
        . rw [if_neg (by omega)]
      rw [if_neg (by omega)]
      apply ih hwf hcomplete hy
      . rw [update_self]
        exact hclear'
      . omega

def DecodesTo (four : Bool) (w h : Nat) (cs : List RleCode) (x y : Nat) : Prop :=
  ∀ img : Canvas, (∀ Y X, (img Y X).toNat < 16) → Clear four (img y) x → ∀ X Y, Behind x y X Y → X < w → Y < h →
    decode four false h cs x y img Y X = meant cs x y X Y

theorem DecodesTo.touches (hall : DecodesTo four w h cs x y) (hbehind : Behind x y X Y) (hX : X < w) (hY : Y < h)
    (hfree : Y = y → X = x → four = true → x % 2 = 0)
    (huntouched : ∀ img : Canvas, decode four false h cs x y img Y X = img Y X) : False := by
  have hzero' : (0 : Byte).toNat < 16 := by decide
  have hzero := hall (fun _ _ => 0) (fun _ _ => by decide) (fun _ _ => rfl) X Y hbehind hX hY
  have hone := hall (update (fun _ _ => 0) Y (update (fun _ => 0) X 1)) ?_ ?_ X Y hbehind hX hY
  . rw [huntouched, update_self, update_self, ← hzero, huntouched] at hone
    revert hone
    decide
  . intro Y' X'
    rw [update_apply]
    split
    . rw [update_apply]
      split
      . decide
      . exact hzero'
    . exact hzero'
  intro hfour hodd
  by_cases hrow : Y = y
  . have hne : x ≠ X := by
      intro hx
      have heven := hfree hrow hx.symm hfour
      omega
    rw [hrow, update_self, update_of_ne hne]
  . rw [update_of_ne (Ne.symm hrow)]

theorem DecodesTo.skips {b : Nat} (hall : DecodesTo four w h cs x y) (hy : y < h) (hb : b ≤ w)
    (huntouched : ∀ X, x ≤ X → X < b → ∀ img : Canvas, decode four false h cs x y img y X = img y X)
    : Skips four x b := by
  intro X hle hlt
  by_contra hnot
  apply hall.touches (.inr ⟨rfl, hle⟩) (by omega) hy _ (huntouched X hle hlt)
  intro _ hX hfour
  rw [hX] at hnot
  have hodd : ¬x % 2 = 1 := fun hodd => hnot ⟨hfour, hodd⟩
  omega

theorem decodesTo_line (hflag : c.flag = .line) (hall : DecodesTo four w h (c :: cs) x y) (hnext : y + 1 < h)
    : DecodesTo four w h cs 0 (y + 1) := by
  intro img hnibbles _ X Y hbehind hX hY
  have hnibbles' : ∀ Y X, (update img y (fun _ => 0) Y X).toNat < 16 := by
    intro Y' X'
    rw [update_apply]
    split
    . exact (by decide : (0 : Byte).toNat < 16)
    . exact hnibbles Y' X'
  have hfull := hall (update img y fun _ => 0) hnibbles' (by intro _ _; rw [update_self]) X Y
    (by unfold Behind at hbehind ⊢; omega) hX hY
  rw [decode_line hflag, if_pos hnext, meant, hflag] at hfull
  dsimp only at hfull
  rw [← hfull]
  apply decode_congr _ hbehind
  intro X' Y' h'
  unfold Behind at h'
  rw [if_neg (by simp), update_of_ne (by omega)]

theorem decodesTo_err (hflag : c.flag = .err) (hrows : c.rows = 0) (hall : DecodesTo four w h (c :: cs) x y)
    : DecodesTo four w h cs (x + c.columns) y := by
  intro img hnibbles hclear X Y hbehind hX hY
  have hle := RleCode.length_le_columns hflag
  have hvalues := c.values_length
  have hfull := hall (update img y fun X => if X < x + c.columns then 0 else img y X) ?_ ?_ X Y
    (by unfold Behind at hbehind ⊢; omega) hX hY
  . rw [decode_err hflag, meant_err hflag, if_neg (by unfold Behind at hbehind; omega), hrows, Nat.add_zero] at hfull
    rw [← hfull]
    apply decode_congr _ hbehind
    intro X' Y' h'
    by_cases hrow : Y' = y
    . unfold Behind at h'
      have hX' : x + c.columns ≤ X' := by omega
      have hnot : ¬X' < x + c.columns := by omega
      rw [hrow, update_self, update_self, putPixels_ge (by omega)]
      simp only [hnot, if_false]
      split
      next hin =>
        have hlast : X' = x + c.columns := by omega
        rw [hlast] at hin ⊢
        exact hclear hin.1 hin.2.1
      . rfl
    . rw [update_of_ne hrow, update_of_ne hrow]
  . intro Y' X'
    rw [update_apply]
    split
    . dsimp only
      split
      . decide
      . exact hnibbles y X'
    . exact hnibbles Y' X'
  intro hfour hodd
  rw [update_self]
  split
  . rfl
  next hcolumns =>
    have hzero : c.columns = 0 := by omega
    rw [hzero] at hclear
    exact hclear hfour hodd

theorem RleCode.fills_of_decodesTo (hw : 0 < w) (hvalid : c.Valid four) (hcolumns : x + c.columns ≤ w)
    (hrows : y + c.rows < h) (hwf : WellFormed four w h cs (x + c.columns) (y + c.rows))
    (hall : DecodesTo four w h (c :: cs) x y) : c.Fills four x := by
  cases c with
  | run count left right =>
    intro hodd
    cases four with
    | false => simpa [RleCode.Valid] using hvalid.2.2
    | true =>
      have hcount := hvalid.1
      have hcols : (RleCode.run count left right).columns = count := by simp [RleCode.columns, RleCode.pixels]
      have hlen : (RleCode.run count left right).pixels.length = count := by simp [RleCode.pixels]
      have hvlen : (RleCode.run count left right).values.length = count := by simp [RleCode.values]
      rw [hcols] at hcolumns
      have hfirst := hall (fun _ _ => 0) (fun _ _ => by decide) (fun _ _ => rfl) x y (.inr ⟨rfl,
        Nat.le_refl _⟩) (by omega) (by omega)
      have hat := @putPixels_at true (fun _ => 0) x (RleCode.run count left right).pixels (fun _ _ => rfl) 0 (by omega)
      rw [decode_err rfl, hcols, decode_front (by unfold Behind; omega), update_self, meant_err rfl,
        if_pos (by omega)] at hfirst
      rw [Nat.add_zero] at hat
      rw [hat, if_pos ⟨rfl, hodd⟩] at hfirst
      simpa [RleCode.pixels, RleCode.values, hcount] using hfirst.symm
  | absolute pixels => trivial
  | endOfLine => trivial
  | endOfBitmap => trivial
  | displace dx dy =>
    have hcols : (RleCode.displace dx dy).columns = dx := rfl
    have hdy : (RleCode.displace dx dy).rows = dy := rfl
    have hnone : (RleCode.displace dx dy).pixels = [] := rfl
    rw [hcols] at hcolumns hwf
    rw [hdy] at hrows hwf
    constructor
    . apply hall.skips (by omega) hcolumns
      intro X hle hlt img
      rw [decode_err rfl, hcols, hnone, decode_front (by unfold Behind; omega), update_self]
      rfl
    by_contra hup
    apply @DecodesTo.touches four w h x y 0 (h - 1) _ hall (.inl (by omega)) hw (by omega) (by omega)
    intro img
    rw [decode_err rfl, hcols, decode_lag hwf (by omega), update_of_ne (by omega)]

theorem complete_of_decodesTo (hw : 0 < w) (hwf : WellFormed four w h cs x y) (hy : y < h)
    (hall : DecodesTo four w h cs x y) : Complete four w h cs x y := by
  induction cs generalizing x y with
  | nil => exact absurd hwf (by simp [WellFormed])
  | cons c cs ih =>
    rw [WellFormed] at hwf
    rw [Complete]
    cases hflag : c.flag with
    | «end» =>
      constructor
      . apply hall.skips hy (Nat.le_refl _)
        intro X _ _ img
        rw [decode_end hflag]
      by_contra hnot
      apply @DecodesTo.touches four w h x y 0 (y + 1) _ hall (.inl (by omega)) hw (by omega) (by omega)
      intro img
      rw [decode_end hflag]
    | line =>
      rw [hflag] at hwf
      constructor
      . apply hall.skips hy (Nat.le_refl _)
        intro X _ _ img
        rw [decode_line hflag]
        split
        . rw [decode_front (by unfold Behind; omega), if_neg (by simp)]
        . rfl
      . intro hnext
        exact ih hwf.2 hnext (decodesTo_line hflag hall hnext)
    | err =>
      rw [hflag] at hwf
      obtain ⟨hvalid, hcolumns, hrows, hwf⟩ := hwf
      have hfills := RleCode.fills_of_decodesTo hw hvalid hcolumns hrows hwf hall
      have hzero := RleCode.rows_eq_zero hfills
      rw [hzero, Nat.add_zero] at hwf
      exact ⟨hfills, ih hwf hy (decodesTo_err hflag hzero hall)⟩

end Agree

end MiniGui
