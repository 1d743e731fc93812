import MiniGui.Mybmp.BmpRoundTrip
import MiniGui.Mybmp.RleMeaning

namespace MiniGui

open List

open BitVec (ofInt ofNat toNat_ofNat)

def packNibbles : List Byte → List Byte
  | a :: b :: l => (a <<< 4 ||| b) :: packNibbles l
  | _ => []

def RleCode.Spelled8 (c : RleCode) (l : List Byte) : Prop :=
  match c with
  | .run count left _ => l = [BitVec.ofNat 8 count, left]
  | .absolute pixels =>
    ∃ pad : List Byte, pad.length = pixels.length % 2 ∧ l = 0 :: BitVec.ofNat 8 pixels.length :: (pixels ++ pad)
  | .endOfLine => l = [0, 0]
  | .endOfBitmap => l = [0, 1]
  | .displace dx dy => l = [0, 2, BitVec.ofNat 8 dx, BitVec.ofNat 8 dy]

def RleCode.Spelled4 (c : RleCode) (l : List Byte) : Prop :=
  match c with
  | .run count left right => l = [BitVec.ofNat 8 count, left <<< 4 ||| right]
  | .absolute pixels =>
    ∃ pad : List Byte, (pixels.length + pad.length) % 4 = 0 ∧ pad.length < 4 ∧ (∀ p ∈ pad, p.toNat < 16)
      ∧ l = 0 :: BitVec.ofNat 8 pixels.length :: packNibbles (pixels ++ pad)
  | .endOfLine => l = [0, 0]
  | .endOfBitmap => l = [0, 1]
  | .displace dx dy => l = [0, 2, BitVec.ofNat 8 dx, BitVec.ofNat 8 dy]

def Stream (spelled : RleCode → List Byte → Prop) : List RleCode → List Byte → Prop
  | [], _ => True
  | c :: cs, l => ∃ l₁ l₂, l = l₁ ++ l₂ ∧ spelled c l₁ ∧ Stream spelled cs l₂

def Encodes (code : Area → RleCode × Area) : List RleCode → Area → Prop
  | [], _ => True
  | c :: cs, f => (code f).1 = c ∧ Encodes code cs (code f).2

theorem encodes_of_stream {code : Area → RleCode × Area} {spelled : RleCode → List Byte → Prop} {valid : RleCode → Prop}
    (hcode : ∀ c f l₁ l₂, valid c → spelled c l₁ → Area.Holds f (l₁ ++ l₂) → (code f).1 = c ∧ (code f).2.Holds l₂)
    {cs : List RleCode} (hvalid : ∀ c ∈ cs, valid c) {f : Area} {l : List Byte} (hstream : Stream spelled cs l)
    (hholds : f.Holds l) : Encodes code cs f := by
  induction cs generalizing f l with
  | nil => trivial
  | cons c cs ih =>
    obtain ⟨l₁, l₂, heq, hspelled, hstream⟩ := hstream
    rw [heq] at hholds
    obtain ⟨hc, hrest⟩ := hcode c f l₁ l₂ (hvalid c (mem_cons_self ..)) hspelled hholds
    exact ⟨hc, ih (fun c hc => hvalid c (mem_cons_of_mem _ hc)) hstream hrest⟩

section Read8

variable {f : Area} {l : List Byte}

theorem readPixels8_holds {pixels : List Byte} (h : f.Holds (pixels ++ l))
    : (readPixels8 pixels.length f).1 = pixels ∧ (readPixels8 pixels.length f).2.Holds l := by
  induction pixels generalizing f with
  | nil => exact ⟨rfl, h⟩
  | cons p pixels ih =>
    obtain ⟨hp, h⟩ := getByte_holds h
    obtain ⟨hpixels, hrest⟩ := ih h
    rw [length_cons, readPixels8]
    dsimp only
    rw [hp, hpixels]
    exact ⟨rfl, hrest⟩

theorem ofNat_ne {n : Nat} {b : Byte} (hn : n < 256) (hne : n ≠ b.toNat) : ofNat 8 n ≠ b := by
  intro heq
  rw [← heq, toNat_ofNat] at hne
  omega

theorem toNat_ofNat_byte {n : Nat} (hn : n < 256) : (ofNat 8 n).toNat = n := by
  rw [toNat_ofNat]
  omega

theorem rle8Code_spelled (c : RleCode) (f : Area) (l₁ l₂ : List Byte) (hvalid : c.Valid false) (hs : c.Spelled8 l₁)
    (h : f.Holds (l₁ ++ l₂)) : (rle8Code f).1 = c ∧ (rle8Code f).2.Holds l₂ := by
  unfold rle8Code
  dsimp only
  cases c with
  | run count left right =>
    obtain ⟨hpos, hlt, hsame⟩ := hvalid
    cases hs
    obtain ⟨hcount, h⟩ := getByte_holds h
    obtain ⟨hval, h⟩ := getByte_holds h
    have hright : left = right := by simpa using hsame
    have hne : ofNat 8 count ≠ (0 : Byte) := ofNat_ne hlt (Nat.ne_of_gt hpos)
    rw [hcount, hval, if_pos hne, toNat_ofNat_byte hlt, ← hright]
    exact ⟨rfl, h⟩
  | absolute pixels =>
    obtain ⟨hmin, hlt, _⟩ := hvalid
    obtain ⟨pad, hpad, hl⟩ := hs
    rw [hl] at h
    simp only [cons_append, append_assoc] at h
    obtain ⟨hcount, h⟩ := getByte_holds h
    obtain ⟨hval, h⟩ := getByte_holds h
    obtain ⟨hpixels, h⟩ := readPixels8_holds h
    have hne : ∀ b : Byte, b.toNat < 3 → ofNat 8 pixels.length ≠ b := by
      intro b hb
      apply ofNat_ne hlt
      omega
    rw [hcount, hval, if_neg (by decide), if_neg (hne 0 (by decide)), if_neg (hne 1 (by decide)),
      if_neg (hne 2 (by decide)), toNat_ofNat_byte hlt, hpixels]
    refine ⟨rfl, ?_⟩
    split
    next hodd =>
      rw [hodd] at hpad
      obtain ⟨b, hb⟩ := length_eq_one_iff.mp hpad
      rw [hb] at h
      exact (getByte_holds h).2
    next heven =>
      have hnil : pad = [] := length_eq_zero_iff.mp (by omega)
      rw [hnil] at h
      exact h
  | endOfLine | endOfBitmap =>
    cases hs
    obtain ⟨hcount, h⟩ := getByte_holds h
    obtain ⟨hval, h⟩ := getByte_holds h
    rw [hcount, hval]
    exact ⟨rfl, h⟩
  | displace dx dy =>
    cases hs
    obtain ⟨hcount, h⟩ := getByte_holds h
    obtain ⟨hval, h⟩ := getByte_holds h
    obtain ⟨hdx, h⟩ := getByte_holds h
    obtain ⟨hdy, h⟩ := getByte_holds h
    rw [hcount, hval, if_neg (by decide), if_neg (by decide), if_neg (by decide), if_pos rfl, hdx, hdy,
      toNat_ofNat_byte hvalid.1, toNat_ofNat_byte hvalid.2]
    exact ⟨rfl, h⟩

end Read8

section Read4

variable {f : Area} {l : List Byte}

def wordOf (b₁ b₀ : Byte) : BitVec 16 :=
  b₁ ++ b₀

theorem wordOf_getLsbD (b₁ b₀ : Byte) (i : Nat)
    : (wordOf b₁ b₀).getLsbD i = if i < 8 then b₀.getLsbD i else b₁.getLsbD (i - 8) := by
  have happend : (wordOf b₁ b₀).getLsbD i = (b₁ ++ b₀).getLsbD i := rfl
  rw [happend, BitVec.getLsbD_append]

theorem wordOf_getElem (b₁ b₀ : Byte) (i : Nat) (hi : i < 16)
    : (wordOf b₁ b₀)[i] = if i < 8 then b₀.getLsbD i else b₁.getLsbD (i - 8) := by
  rw [← BitVec.getLsbD_eq_getElem hi, wordOf_getLsbD]

theorem fpIgetw_bytes {b₀ b₁ : Byte} (h : f.Holds (b₀ :: b₁ :: l))
    : (fpIgetw f).1 = wordOf b₁ b₀ ∧ (fpIgetw f).2.Holds l := by
  obtain ⟨hbytes, hrest⟩ := @rwRead_holds f [b₀, b₁] l 2 1 h (by omega) rfl
  unfold fpIgetw
  generalize rwRead f 2 1 = r at hbytes hrest
  obtain ⟨bytes, f'⟩ := r
  dsimp only at hbytes hrest
  rw [hbytes]
  exact ⟨rfl, hrest⟩

theorem fpGetc_holds {b : Byte} (h : f.Holds (b :: l)) : (fpGetc f).1 = b.toNat ∧ (fpGetc f).2.Holds l := by
  have hget := fpGetc_cons h.rest_eq
  have hrest := (getByte_holds h).2
  rw [← fpGetc_eq_getByte] at hrest
  exact ⟨by rw [hget], hrest⟩

theorem nibble_cases {a : Byte} (ha : a.toNat < 16) : ∃ n : BitVec 4, a = n.zeroExtend 8 := by
  refine ⟨a.truncate 4, ?_⟩
  apply BitVec.eq_of_toNat_eq
  simp
  omega

theorem nibble4_pack {a b c d : Byte} (ha : a.toNat < 16) (hb : b.toNat < 16) (hc : c.toNat < 16) (hd : d.toNat < 16)
    (j : Nat) : nibble4 (wordOf (c <<< 4 ||| d) (a <<< 4 ||| b)) j =
        match j % 4 with
        | 0 => a
        | 1 => b
        | 2 => c
        | _ => d := by
  obtain ⟨a, rfl⟩ := nibble_cases ha
  obtain ⟨b, rfl⟩ := nibble_cases hb
  obtain ⟨c, rfl⟩ := nibble_cases hc
  obtain ⟨d, rfl⟩ := nibble_cases hd
  have hj : j % 4 = 0 ∨ j % 4 = 1 ∨ j % 4 = 2 ∨ j % 4 = 3 := by omega
  rcases hj with hj | hj | hj | hj
  all_goals
    simp only [nibble4, hj]
    apply byte_ext
    simp [Fin.forall_fin_succ, wordOf_getElem]

theorem readPixels4_holds (pixels pad : List Byte) (hlen : (pixels.length + pad.length) % 4 = 0) (hpad : pad.length < 4)
    (hnibbles : ∀ p ∈ pixels ++ pad, p.toNat < 16) (j : Nat) (hj : j % 4 = 0) (val0 : BitVec 16) (f : Area)
    (h : f.Holds (packNibbles (pixels ++ pad) ++ l))
    : (readPixels4 pixels.length j val0 f).1 = pixels ∧ (readPixels4 pixels.length j val0 f).2.Holds l := by
  have hj1 : (j + 1) % 4 = 1 := by omega
  have hj2 : (j + 1 + 1) % 4 = 2 := by omega
  have hj3 : (j + 1 + 1 + 1) % 4 = 3 := by omega
  match pixels, pad, hlen, hpad with
  | [], [], _, _ => exact ⟨rfl, h⟩
  | [], a :: pad, hlen, hpad =>
    simp only [List.length_nil, length_cons] at hlen hpad
    omega
  | [a], [b, c, d], _, _ =>
    obtain ⟨hword, h⟩ := fpIgetw_bytes h
    simp only [cons_append, nil_append, forall_mem_cons] at hnibbles
    obtain ⟨ha, hb, hc, hd, _⟩ := hnibbles
    have hnibble := nibble4_pack ha hb hc hd
    simp only [length_cons, List.length_nil, readPixels4, if_true, hword, hnibble, hj]
    exact ⟨trivial, h⟩
  | [a, b], [c, d], _, _ =>
    obtain ⟨hword, h⟩ := fpIgetw_bytes h
    simp only [cons_append, nil_append, forall_mem_cons] at hnibbles
    obtain ⟨ha, hb, hc, hd, _⟩ := hnibbles
    have hnibble := nibble4_pack ha hb hc hd
    have hn1 : ¬(1 : Nat) = 0 := by omega
    simp only [length_cons, List.length_nil, readPixels4, if_true, hword, hnibble, hj, hj1, if_neg hn1]
    exact ⟨trivial, h⟩
  | [a, b, c], [d], _, _ =>
    obtain ⟨hword, h⟩ := fpIgetw_bytes h
    simp only [cons_append, nil_append, forall_mem_cons] at hnibbles
    obtain ⟨ha, hb, hc, hd, _⟩ := hnibbles
    have hnibble := nibble4_pack ha hb hc hd
    have hn1 : ¬(1 : Nat) = 0 := by omega
    have hn2 : ¬(2 : Nat) = 0 := by omega
    simp only [length_cons, List.length_nil, readPixels4, if_true, hword, hnibble, hj, hj1, hj2, if_neg hn1,
      if_neg hn2]
    exact ⟨trivial, h⟩
  | a :: b :: c :: d :: pixels, pad, hlen, hpad =>
    obtain ⟨hword, h⟩ := fpIgetw_bytes h
    simp only [cons_append, forall_mem_cons] at hnibbles
    obtain ⟨ha, hb, hc, hd, hnibbles⟩ := hnibbles
    have hnibble := nibble4_pack ha hb hc hd
    have hlen' : (pixels.length + pad.length) % 4 = 0 := by
      simp only [length_cons] at hlen
      omega
    have hj4 : (j + 1 + 1 + 1 + 1) % 4 = 0 := by omega
    obtain ⟨hpixels, hrest⟩ := readPixels4_holds pixels pad hlen' hpad hnibbles (j + 1 + 1 + 1 + 1) hj4
      (wordOf (c <<< 4 ||| d) (a <<< 4 ||| b)) _ h
    have hn1 : ¬(1 : Nat) = 0 := by omega
    have hn2 : ¬(2 : Nat) = 0 := by omega
    have hn3 : ¬(3 : Nat) = 0 := by omega
    simp only [length_cons, readPixels4, if_true, hword, hnibble, hj, hj1, hj2, hj3, if_neg hn1, if_neg hn2,
      if_neg hn3, hpixels]
    exact ⟨trivial, hrest⟩
  | [_], [], hlen, _ | [_], [_], hlen, _ | [_], [_, _], hlen, _ | [_, _], [], hlen, _
  | [_, _], [_], hlen, _ | [_, _], [_, _, _], hlen, _ | [_, _, _], [], hlen, _
  | [_, _, _], [_, _], hlen, _ | [_, _, _], [_, _, _], hlen, _ => simp at hlen

theorem ofInt_toNat (b : Byte) : ofInt 16 (b.toNat : Int) = b.zeroExtend 16 := by
  apply BitVec.eq_of_toNat_eq
  simp

theorem run4_nibbles {a b : Byte} (ha : a.toNat < 16) (hb : b.toNat < 16)
    : ((((a <<< 4 ||| b).zeroExtend 16 : BitVec 16) >>> 4) &&& 15).truncate 8 = a
        ∧ (((a <<< 4 ||| b).zeroExtend 16 : BitVec 16) &&& 15).truncate 8 = b := by
  obtain ⟨a, rfl⟩ := nibble_cases ha
  obtain ⟨b, rfl⟩ := nibble_cases hb
  constructor
  all_goals
    apply byte_ext
    simp [Fin.forall_fin_succ]

theorem rle4Code_spelled (c : RleCode) (f : Area) (l₁ l₂ : List Byte) (hvalid : c.Valid true) (hs : c.Spelled4 l₁)
    (h : f.Holds (l₁ ++ l₂)) : (rle4Code f).1 = c ∧ (rle4Code f).2.Holds l₂ := by
  have hval16 : ∀ n, n < 256 → ofInt 16 ((ofNat 8 n).toNat : Int) = ofNat 16 n := by
    intro n hn
    rw [toNat_ofNat_byte hn]
    rfl
  unfold rle4Code
  dsimp only
  cases c with
  | run count left right =>
    obtain ⟨hpos, hlt, hnibbles⟩ := hvalid
    rw [if_pos rfl] at hnibbles
    cases hs
    obtain ⟨hcount, h⟩ := getByte_holds h
    obtain ⟨hval, h⟩ := fpGetc_holds h
    have hne : ofNat 8 count ≠ (0 : Byte) := ofNat_ne hlt (Nat.ne_of_gt hpos)
    rw [hcount, hval, if_pos hne, toNat_ofNat_byte hlt]
    refine ⟨?_, h⟩
    rw [ofInt_toNat, (run4_nibbles hnibbles.1 hnibbles.2).1, (run4_nibbles hnibbles.1 hnibbles.2).2]
  | absolute pixels =>
    obtain ⟨hmin, hlt, hnibbles⟩ := hvalid
    obtain ⟨pad, hlen, hpad, hpadnibbles, hl⟩ := hs
    rw [hl] at h
    obtain ⟨hcount, h⟩ := getByte_holds h
    obtain ⟨hval, h⟩ := fpGetc_holds h
    have hne : ∀ b : BitVec 16, b.toNat < 3 → ofNat 16 pixels.length ≠ b := by
      intro b hb heq
      rw [← heq, toNat_ofNat] at hb
      omega
    have hnat : (ofNat 16 pixels.length).toNat = pixels.length := by
      rw [toNat_ofNat]
      omega
    have hall : ∀ p ∈ pixels ++ pad, p.toNat < 16 := by
      intro p hp
      rcases mem_append.mp hp with hp | hp
      . exact hnibbles rfl p hp
      . exact hpadnibbles p hp
    obtain ⟨hpixels, hrest⟩ := readPixels4_holds pixels pad hlen hpad hall 0 rfl 0 _ h
    rw [hcount, hval, hval16 _ hlt, if_neg (by decide), if_neg (hne 0 (by decide)), if_neg (hne 1 (by decide)),
      if_neg (hne 2 (by decide)), hnat, hpixels]
    exact ⟨rfl, hrest⟩
  | endOfLine | endOfBitmap =>
    cases hs
    obtain ⟨hcount, h⟩ := getByte_holds h
    obtain ⟨hval, h⟩ := fpGetc_holds h
    rw [hcount, hval]
    exact ⟨rfl, h⟩
  | displace dx dy =>
    cases hs
    obtain ⟨hcount, h⟩ := getByte_holds h
    obtain ⟨hval, h⟩ := fpGetc_holds h
    obtain ⟨hdx, h⟩ := getByte_holds h
    obtain ⟨hdy, h⟩ := getByte_holds h
    have htwo : ofInt 16 ((2 : Byte).toNat : Int) = 2 := by decide
    rw [hcount, hval, htwo, if_neg (by decide), if_neg (by decide), if_neg (by decide), if_pos rfl, hdx, hdy,
      toNat_ofNat_byte hvalid.1, toNat_ofNat_byte hvalid.2]
    exact ⟨rfl, h⟩

end Read4

end MiniGui
