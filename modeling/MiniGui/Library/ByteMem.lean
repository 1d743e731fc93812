import Mathlib

namespace ByteMem

abbrev Mem := Nat → BitVec 8

variable {n : Nat} {big : Bool}

def lane (big : Bool) (n k : Nat) : Nat :=
  if big then n - 1 - k else k

def byteAt (big : Bool) (v : BitVec (8 * n)) (k : Nat) : BitVec 8 :=
  v.extractLsb' (8 * lane big n k) 8

def load (big : Bool) (n : Nat) (mem : Mem) (p : Nat) : BitVec (8 * n) :=
  BitVec.ofFnLE fun i => (mem (p + lane big n (i / 8))).getLsbD (i % 8)

def store (big : Bool) (mem : Mem) (p : Nat) (v : BitVec (8 * n)) : Mem :=
  fun q => if p ≤ q ∧ q < p + n then byteAt big v (q - p) else mem q

def forWords (big : Bool) (n : Nat) (f : Nat → BitVec (8 * n) → BitVec (8 * n)) : Nat → Nat → Nat → Mem → Mem
  | 0, _, _, mem => mem
  | w + 1, p, i, mem => forWords big n f w (p + n) (i + 1) (store big mem p (f i (load big n mem p)))

theorem lane_lt {k : Nat} (hk : k < n) : lane big n k < n := by
  unfold lane
  split <;> omega

theorem lane_lane {k : Nat} (hk : k < n) : lane big n (lane big n k) = k := by
  unfold lane
  split <;> omega

theorem byteAt_load (mem : Mem) (p : Nat) {k : Nat} (hk : k < n) : byteAt big (load big n mem p) k = mem (p + k) := by
  have hlane : lane big n k < n := lane_lt hk
  ext i hi
  have hdiv : (8 * lane big n k + i) / 8 = lane big n k := by omega
  have hmod : (8 * lane big n k + i) % 8 = i := by omega
  have hlt : 8 * lane big n k + i < 8 * n := by omega
  rw [byteAt, load, BitVec.getElem_extractLsb', BitVec.getLsbD_ofFnLE, dif_pos hlt]
  rw [hdiv, hmod, lane_lane hk, BitVec.getLsbD_eq_getElem hi]

theorem eq_of_byteAt (big : Bool) {v v' : BitVec (8 * n)} (h : ∀ k < n, byteAt big v k = byteAt big v' k) : v = v' := by
  ext i hi
  have hk : i / 8 < n := by omega
  have hsum : 8 * (i / 8) + i % 8 = i := by omega
  have hbyte := congrArg (fun b : BitVec 8 => b.getLsbD (i % 8)) (h (lane big n (i / 8)) (lane_lt hk))
  simp only [byteAt, lane_lane hk, BitVec.getLsbD_extractLsb', hsum] at hbyte
  have hmod : i % 8 < 8 := by omega
  simpa [hmod, BitVec.getLsbD_eq_getElem hi] using hbyte

theorem store_of_mem {mem : Mem} {p : Nat} (v : BitVec (8 * n)) {k : Nat} (hk : k < n)
    : store big mem p v (p + k) = byteAt big v k := by
  rw [store, if_pos (by omega), Nat.add_sub_cancel_left]

theorem store_of_not_mem {mem : Mem} {p q : Nat} (v : BitVec (8 * n)) (hq : q < p ∨ p + n ≤ q)
    : store big mem p v q = mem q := by
  rw [store, if_neg (by omega)]

theorem load_congr {mem mem' : Mem} {p : Nat} (h : ∀ k < n, mem' (p + k) = mem (p + k))
    : load big n mem' p = load big n mem p := by
  apply eq_of_byteAt big
  intro k hk
  rw [byteAt_load _ _ hk, byteAt_load _ _ hk, h k hk]

theorem load_store (mem : Mem) (p : Nat) (v : BitVec (8 * n)) : load big n (store big mem p v) p = v := by
  apply eq_of_byteAt big
  intro k hk
  rw [byteAt_load _ _ hk, store_of_mem v hk]

section Lines

variable {f : Nat → BitVec (8 * n) → BitVec (8 * n)}

theorem forWords_outside (w p i : Nat) (mem : Mem) {q : Nat} (hq : q < p ∨ p + w * n ≤ q)
    : forWords big n f w p i mem q = mem q := by
  induction w generalizing p i mem with
  | zero => rfl
  | succ w ih =>
    have hsize : (w + 1) * n = w * n + n := Nat.succ_mul w n
    rw [forWords, ih _ _ _ (by omega), store_of_not_mem _ (by omega)]

theorem load_forWords (w p i : Nat) (mem : Mem) {j : Nat} (hj : j < w)
    : load big n (forWords big n f w p i mem) (p + j * n) = f (i + j) (load big n mem (p + j * n)) := by
  induction w generalizing p i mem j with
  | zero => omega
  | succ w ih =>
    rw [forWords]
    cases j with
    | zero =>
      have hfirst : load big n (forWords big n f w (p + n) (i + 1) (store big mem p (f i (load big n mem p)))) p
          = load big n (store big mem p (f i (load big n mem p))) p := by
        apply load_congr
        intro k hk
        exact forWords_outside _ _ _ _ (Or.inl (by omega))
      simp only [Nat.zero_mul, Nat.add_zero]
      rw [hfirst, load_store]
    | succ j =>
      have haddr : p + (j + 1) * n = p + n + j * n := by
        rw [Nat.succ_mul]
        omega
      have hrest : load big n (store big mem p (f i (load big n mem p))) (p + n + j * n)
          = load big n mem (p + n + j * n) := by
        apply load_congr
        intro k hk
        exact store_of_not_mem _ (Or.inr (by omega))
      rw [haddr, ih _ _ _ (by omega), hrest]
      congr 1
      omega

theorem forWords_add (a b p i : Nat) (mem : Mem)
    : forWords big n f (a + b) p i mem = forWords big n f b (p + a * n) (i + a) (forWords big n f a p i mem) := by
  induction a generalizing p i mem with
  | zero => simp [forWords]
  | succ a ih =>
    have haddr : p + n + a * n = p + (a + 1) * n := by
      rw [Nat.succ_mul]
      omega
    have hnum : i + 1 + a = i + (a + 1) := by omega
    rw [Nat.succ_add, forWords, ih, haddr, hnum, forWords]

def Bytewise (big : Bool) (f : Nat → BitVec (8 * n) → BitVec (8 * n)) (g : Nat → BitVec 8 → BitVec 8) : Prop :=
  ∀ i d k, k < n → byteAt big (f i d) k = g (i * n + k) (byteAt big d k)

variable {g : Nat → BitVec 8 → BitVec 8}

theorem forWords_byte (h : Bytewise big f g) (w p : Nat) (mem : Mem) {j : Nat} (hj : j < w * n)
    : forWords big n f w p 0 mem (p + j) = g j (mem (p + j)) := by
  have hn : 0 < n := Nat.pos_of_mul_pos_left (Nat.zero_lt_of_lt hj)
  have hmod : j % n < n := Nat.mod_lt j hn
  have hdiv : j / n < w := Nat.div_lt_of_lt_mul (by rwa [Nat.mul_comm])
  have hsum : j / n * n + j % n = j := by
    rw [Nat.mul_comm]
    exact Nat.div_add_mod j n
  have haddr : p + j = p + j / n * n + j % n := by omega
  have hword := congrArg (fun v => byteAt big v (j % n)) (@load_forWords n big f w p 0 mem _ hdiv)
  simp only [byteAt_load _ _ hmod, Nat.zero_add, h _ _ _ hmod, hsum] at hword
  rw [haddr, hword]

theorem forWords_eq {m : Nat} {f' : Nat → BitVec (8 * m) → BitVec (8 * m)} (h : Bytewise big f g)
    (h' : Bytewise big f' g) {w w' : Nat} (hsize : w * n = w' * m) (p : Nat) (mem : Mem)
    : forWords big n f w p 0 mem = forWords big m f' w' p 0 mem := by
  funext q
  by_cases hq : p ≤ q ∧ q < p + w * n
  . have haddr : q = p + (q - p) := by omega
    rw [haddr, forWords_byte h w p mem (by omega), forWords_byte h' w' p mem (by omega)]
  . rw [forWords_outside _ _ _ _ (by omega), forWords_outside _ _ _ _ (by omega)]

theorem eq_forWords_iff (hn : 0 < n) (w p : Nat) (mem mem' : Mem)
    : mem' = forWords big n f w p 0 mem
      ↔ (∀ j < w, load big n mem' (p + j * n) = f j (load big n mem (p + j * n)))
        ∧ ∀ q, q < p ∨ p + w * n ≤ q → mem' q = mem q := by
  constructor
  . intro h
    rw [h]
    constructor
    . intro j hj
      rw [load_forWords w p 0 mem hj, Nat.zero_add]
    . intro q hq
      exact forWords_outside w p 0 mem hq
  rintro ⟨hin, hout⟩
  funext q
  by_cases hq : p ≤ q ∧ q < p + w * n
  . have hdiv : (q - p) / n < w := Nat.div_lt_of_lt_mul (by rw [Nat.mul_comm]; omega)
    have hmod : (q - p) % n < n := Nat.mod_lt _ hn
    have hsum : (q - p) / n * n + (q - p) % n = q - p := by
      rw [Nat.mul_comm]
      exact Nat.div_add_mod _ _
    have haddr : q = p + (q - p) / n * n + (q - p) % n := by omega
    have hword : load big n mem' (p + (q - p) / n * n)
        = load big n (forWords big n f w p 0 mem) (p + (q - p) / n * n) := by
      rw [hin _ hdiv, load_forWords w p 0 mem hdiv, Nat.zero_add]
    have hbyte := congrArg (fun v => byteAt big v ((q - p) % n)) hword
    simp only [byteAt_load _ _ hmod] at hbyte
    rwa [← haddr] at hbyte
  . rw [hout q (by omega), forWords_outside w p 0 mem (by omega)]

theorem forWords_eq_iff {f' : Nat → BitVec (8 * n) → BitVec (8 * n)} (hn : 0 < n) (w p : Nat) (mem : Mem)
    : forWords big n f w p 0 mem = forWords big n f' w p 0 mem
      ↔ ∀ j < w, f j (load big n mem (p + j * n)) = f' j (load big n mem (p + j * n)) := by
  rw [eq_forWords_iff hn]
  constructor
  . rintro ⟨hin, _⟩ j hj
    rw [← hin j hj, load_forWords w p 0 mem hj, Nat.zero_add]
  intro h
  refine ⟨?_, fun q hq => forWords_outside w p 0 mem hq⟩
  intro j hj
  rw [load_forWords w p 0 mem hj, Nat.zero_add, h j hj]

theorem forWords_shift (w p i a : Nat) (mem : Mem)
    : forWords big n f w p (i + a) mem = forWords big n (fun j => f (j + a)) w p i mem := by
  induction w generalizing p i mem with
  | zero => rfl
  | succ w ih =>
    have hnum : i + a + 1 = i + 1 + a := by omega
    rw [forWords, forWords, hnum, ih]

end Lines

end ByteMem
