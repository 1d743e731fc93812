import MiniGui.Font.TextOps

namespace MiniGui

structure CharsetConv where
  convToUc32 : Memory → UInt32
  convFromUc32 : UInt32 → List UInt8
  convFromUc32_le : ∀ uc32, (convFromUc32 uc32).length ≤ 16

structure ConvFont extends LogFont where
  sbcConv : CharsetConv
  mbcConv : CharsetConv

namespace ConvFont

variable (font : ConvFont)

/--
The length of the next character of `MBS2WCSEx`, and what it is, after `count` characters. None is the `break`.
-/
def nextChar (mstr : Memory) (left : Int) (count : Nat) : Option (Nat × UInt32) :=
  let mbcLen := font.mbcLenFirstChar mstr left
  if mbcLen > 0 then
    some (mbcLen, font.mbcConv.convToUc32 mstr)
  else if font.mbcDevfont.isSome ∧ count > 0 ∧ mstr 0 > 0x7F then
    none
  else
    let sbcLen := font.sbcDevfont.lenFirstChar mstr left
    if sbcLen = 0 then none else some (sbcLen, font.sbcConv.convToUc32 mstr)

def stored (wc32 : Bool) (uc32 : UInt32) : UInt32 :=
  if wc32 then uc32 else if uc32 > 0xFFFF then 0xFEFF else uc32

def mbsLoop (wc32 : Bool) (n : Nat) : Nat → Memory → Int → Nat → List UInt32 × Nat
  | 0, _, _, _ => ([], 0)
  | rounds + 1, mstr, left, count =>
    if left > 0 ∧ mstr 0 ≠ 0 then
      match font.nextChar mstr left count with
      | none => ([], 0)
      | some (lenCurChar, uc32) =>
        if count + 1 = n then
          ([stored wc32 uc32], 0)
        else
          let rest := mbsLoop wc32 n rounds (mstr.advance lenCurChar) (left - lenCurChar) (count + 1)
          (stored wc32 uc32 :: rest.1, lenCurChar + rest.2)
    else
      ([], 0)

end ConvFont

structure WideText where
  chars : List UInt32
  terminated : Bool
  convedMstrLen : Int
  lastRead : Nat
deriving DecidableEq

def WideText.written (text : WideText) : Nat :=
  text.chars.length + if text.terminated then 1 else 0

structure MultiText where
  bytes : List UInt8
  terminated : Bool
  failed : Bool
  convedWcsLen : Nat
  lastRead : Nat
deriving DecidableEq

def MultiText.written (text : MultiText) : Nat :=
  text.bytes.length + if text.terminated then 1 else 0

inductive WcsExit where
  | exhausted
  | nul
  | unconvertible
  | limit
deriving DecidableEq

namespace ConvFont

variable (font : ConvFont)

def mbs2wcsEx (wc32 : Bool) (mstr : Memory) (mstrLen n : Nat) : WideText :=
  let loop := font.mbsLoop wc32 n mstrLen mstr mstrLen 0
  let left : Int := mstrLen - loop.2
  if mstr loop.2 = 0 then
    { chars := loop.1, terminated := loop.1.length < n, convedMstrLen := mstrLen - (left - 1), lastRead := loop.2 }
  else
    { chars := loop.1, terminated := false, convedMstrLen := mstrLen - left, lastRead := loop.2 }

def multiBytes (uc32 : UInt32) : List UInt8 :=
  let mbcBytes := if font.mbcDevfont.isSome then font.mbcConv.convFromUc32 uc32 else []
  if mbcBytes = [] then font.sbcConv.convFromUc32 uc32 else mbcBytes

def wcsLoop (n : Nat) : Nat → (Nat → UInt32) → Nat → List UInt8 × Nat × WcsExit
  | 0, _, _ => ([], 0, .exhausted)
  | left + 1, wcs, count =>
    if wcs 0 = 0 then
      ([], 0, .nul)
    else
      let mchar := font.multiBytes (wcs 0)
      if mchar = [] then
        ([], 0, .unconvertible)
      else if count + mchar.length > n then
        ([], 0, .limit)
      else
        let rest := wcsLoop n left (fun i => wcs (i + 1)) (count + mchar.length)
        (mchar ++ rest.1, rest.2.1 + 1, rest.2.2)

def wcs2mbsEx (wcs : Nat → UInt32) (wcsLen n : Nat) : MultiText :=
  let loop := font.wcsLoop n wcsLen wcs 0
  if loop.2.2 = .unconvertible then
    { bytes := loop.1, terminated := false, failed := true, convedWcsLen := loop.2.1, lastRead := loop.2.1 }
  else if wcs loop.2.1 = 0 then
    { bytes := loop.1, terminated := loop.1.length < n, failed := false, convedWcsLen := loop.2.1 + 1,
      lastRead := loop.2.1 }
  else
    { bytes := loop.1, terminated := false, failed := false, convedWcsLen := loop.2.1, lastRead := loop.2.1 }

def mbsCalls (wc32 : Bool) (unlimited : Nat) : List Nat → Memory → Nat → List UInt32
  | [], mstr, mstrLen => (font.mbs2wcsEx wc32 mstr mstrLen unlimited).chars
  | n :: limits, mstr, mstrLen =>
    let text := font.mbs2wcsEx wc32 mstr mstrLen n
    if text.convedMstrLen < mstrLen then
      text.chars ++ mbsCalls wc32 unlimited limits (mstr.advance text.convedMstrLen.toNat)
        (mstrLen - text.convedMstrLen.toNat)
    else
      text.chars

def wcsCalls (unlimited : Nat) : List Nat → (Nat → UInt32) → Nat → List UInt8
  | [], wcs, wcsLen => (font.wcs2mbsEx wcs wcsLen unlimited).bytes
  | n :: limits, wcs, wcsLen =>
    let text := font.wcs2mbsEx wcs wcsLen n
    if text.convedWcsLen < wcsLen then
      text.bytes ++ wcsCalls unlimited limits (fun i => wcs (text.convedWcsLen + i)) (wcsLen - text.convedWcsLen)
    else
      text.bytes

structure MbsResumes (wc32 : Bool) (mstr : Memory) (mstrLen n : Nat) : Prop where
  bounded : (font.mbs2wcsEx wc32 mstr mstrLen n).written ≤ n
  conved_nonneg : 0 ≤ (font.mbs2wcsEx wc32 mstr mstrLen n).convedMstrLen
  conved_le : (font.mbs2wcsEx wc32 mstr mstrLen n).convedMstrLen ≤ mstrLen
  inside : (font.mbs2wcsEx wc32 mstr mstrLen n).lastRead < mstrLen
  resumes : ∀ unlimited > mstrLen, ∀ limits : List Nat, (∀ n ∈ limits, n ≥ 1) →
    font.mbsCalls wc32 unlimited (n :: limits) mstr mstrLen = (font.mbs2wcsEx wc32 mstr mstrLen unlimited).chars

structure WcsResumes (wcs : Nat → UInt32) (wcsLen n : Nat) : Prop where
  bounded : (font.wcs2mbsEx wcs wcsLen n).written ≤ n
  conved_le : (font.wcs2mbsEx wcs wcsLen n).convedWcsLen ≤ wcsLen
  inside : (font.wcs2mbsEx wcs wcsLen n).lastRead < wcsLen
  resumes : ∀ unlimited ≥ 16 * wcsLen, ∀ limits : List Nat, (∀ n ∈ limits, n ≥ 1) →
    font.wcsCalls unlimited (n :: limits) wcs wcsLen = (font.wcs2mbsEx wcs wcsLen unlimited).bytes

inductive CharsTo : Memory → Int → Nat → Nat → List UInt32 → Prop where
  | nil (mstr : Memory) (left : Int) (count : Nat) : CharsTo mstr left count 0 []
  | cons {mstr : Memory} {left : Int} {count len pos : Nat} {uc32 : UInt32} {chars : List UInt32}
    : left > 0 → mstr 0 ≠ 0 → font.nextChar mstr left count = some (len, uc32) →
      CharsTo (mstr.advance len) (left - len) (count + 1) pos chars → CharsTo mstr left count (len + pos) (uc32 :: chars)

def MbsOk (mstr : Memory) (mstrLen n : Nat) : Prop :=
  ∃ pos chars, font.CharsTo mstr mstrLen 0 pos chars ∧ pos < mstrLen ∧ chars.length < n
    ∧ ∀ i, pos ≤ i → i < mstrLen → mstr i = 0

inductive BytesTo : (Nat → UInt32) → Nat → List UInt8 → Prop where
  | nil (wcs : Nat → UInt32) : BytesTo wcs 0 []
  | cons {wcs : Nat → UInt32} {pos : Nat} {bytes : List UInt8} : wcs 0 ≠ 0 → font.multiBytes (wcs 0) ≠ [] →
      BytesTo (fun i => wcs (i + 1)) pos bytes → BytesTo wcs (pos + 1) (font.multiBytes (wcs 0) ++ bytes)

def ZeroEnds (wcs : Nat → UInt32) (wcsLen : Nat) : Prop :=
  ∀ pos bytes, font.BytesTo wcs pos bytes → wcs pos = 0 → ∀ i, pos ≤ i → i < wcsLen →
    (∀ j, pos ≤ j → j < i → wcs j = 0) → wcs i = 0 ∨ font.multiBytes (wcs i) = []

def WcsStops (wcs : Nat → UInt32) (wcsLen n : Nat) : Prop :=
  ∃ pos bytes, font.BytesTo wcs pos bytes ∧ pos < wcsLen
    ∧ (wcs pos = 0 ∨ font.multiBytes (wcs pos) = [] ∨ n < bytes.length + (font.multiBytes (wcs pos)).length)

variable {len pos unlimited : Nat} {uc32 : UInt32} {chars : List UInt32}

section Characters

variable {font : ConvFont} {mstr : Memory} {left : Int} {count : Nat}

theorem sbcLen_pos (font : ConvFont) (hleft : left > 0) (hne : mstr 0 ≠ 0)
    : 0 < font.sbcDevfont.lenFirstChar mstr left := by
  cases font.sbcDevfont with
  | sb =>
    change 0 < sbLenFirstChar mstr left
    unfold sbLenFirstChar
    rw [if_neg (by omega), if_pos hne]
    exact Nat.one_pos
  | jisx0201 =>
    change 0 < jisx0201LenFirstChar mstr left
    unfold jisx0201LenFirstChar
    rw [if_neg hne]
    split
    . decide
    . decide

theorem nextChar_first (font : ConvFont) (hleft : left > 0) (hne : mstr 0 ≠ 0)
    : ∃ len uc32, font.nextChar mstr left 0 = some (len, uc32) := by
  have hsbc := sbcLen_pos font hleft hne
  unfold nextChar
  dsimp only
  split
  . exact ⟨_, _, rfl⟩
  . rw [if_neg (fun hand => absurd hand.2.1 (Nat.lt_irrefl 0)), if_neg (by omega)]
    exact ⟨_, _, rfl⟩

theorem nextChar_pos (hleft : left > 0) (hne : mstr 0 ≠ 0)
    (hnext : font.nextChar mstr left count = some (len, uc32)) : 0 < len := by
  have hsbc := sbcLen_pos font hleft hne
  unfold nextChar at hnext
  dsimp only at hnext
  split_ifs at hnext with hmbc
  . cases hnext
    exact hmbc
  . cases hnext
    exact hsbc

theorem nextChar_count (font : ConvFont) (mstr : Memory) (left : Int) {count count' : Nat} (hcount : count > 0)
    (hcount' : count' > 0) : font.nextChar mstr left count = font.nextChar mstr left count' := by
  unfold nextChar
  simp only [hcount, hcount']

theorem nextChar_of_first (hnext : font.nextChar mstr left count = some (len, uc32))
    : font.nextChar mstr left 0 = some (len, uc32) := by
  unfold nextChar at hnext ⊢
  dsimp only at hnext ⊢
  split_ifs at hnext with hmbc
  . rw [if_pos hmbc]
    exact hnext
  case neg hstray hsbc =>
    rw [if_neg hmbc, if_neg (fun hand => absurd hand.2.1 (Nat.lt_irrefl 0)), if_neg hsbc]
    exact hnext

end Characters

section Loop

variable {font : ConvFont} {wc32 : Bool} {n : Nat}

theorem mbsLoop_nul (rounds : Nat) {mstr : Memory} (left : Int) (count : Nat) (hnul : mstr 0 = 0)
    : font.mbsLoop wc32 n rounds mstr left count = ([], 0) := by
  cases rounds with
  | zero => rfl
  | succ rounds => exact if_neg (fun hand => hand.2 hnul)

theorem mbsLoop_over (rounds : Nat) (mstr : Memory) {left : Int} (count : Nat) (hleft : left ≤ 0)
    : font.mbsLoop wc32 n rounds mstr left count = ([], 0) := by
  cases rounds with
  | zero => rfl
  | succ rounds => exact if_neg (fun hand => absurd hand.1 (by omega))

theorem mbsLoop_rounds {rounds rounds' : Nat} (mstr : Memory) {left : Int} (count : Nat) (hrounds : left.toNat ≤ rounds)
    (hrounds' : left.toNat ≤ rounds')
    : font.mbsLoop wc32 n rounds mstr left count = font.mbsLoop wc32 n rounds' mstr left count := by
  induction rounds generalizing rounds' mstr left count with
  | zero => rw [mbsLoop_over 0 mstr count (by omega), mbsLoop_over rounds' mstr count (by omega)]
  | succ rounds ih =>
    by_cases hgo : left > 0 ∧ mstr 0 ≠ 0
    . cases rounds' with
      | zero => omega
      | succ rounds' =>
        unfold mbsLoop
        rw [if_pos hgo, if_pos hgo]
        cases hnext : font.nextChar mstr left count with
        | none => rfl
        | some next =>
          obtain ⟨len, uc32⟩ := next
          have hlen := nextChar_pos hgo.1 hgo.2 hnext
          dsimp only
          have hleft : (left - len).toNat ≤ rounds := by omega
          have hleft' : (left - len).toNat ≤ rounds' := by omega
          rw [ih (mstr.advance len) (count + 1) hleft hleft']
    . rcases not_and_or.mp hgo with hleft | hne
      . rw [mbsLoop_over _ mstr count (by omega), mbsLoop_over rounds' mstr count (by omega)]
      . rw [mbsLoop_nul _ left count (not_not.mp hne), mbsLoop_nul rounds' left count (not_not.mp hne)]

theorem mbsLoop_unlimited (rounds : Nat) (mstr : Memory) {left : Int} {count : Nat}
    (hunlimited : count + left < unlimited)
    : font.mbsLoop wc32 unlimited rounds mstr left count = font.mbsLoop wc32 0 rounds mstr left count := by
  induction rounds generalizing mstr left count with
  | zero => rfl
  | succ rounds ih =>
    unfold mbsLoop
    split
    case isTrue hgo =>
      cases hnext : font.nextChar mstr left count with
      | none => rfl
      | some next =>
        obtain ⟨len, uc32⟩ := next
        have hlen := nextChar_pos hgo.1 hgo.2 hnext
        have hrest : (count + 1 : Nat) + (left - len) < unlimited := by omega
        dsimp only
        rw [if_neg (by omega), if_neg (by omega), ih (mstr.advance len) hrest]
    case isFalse => rfl

theorem mbsLoop_count (rounds : Nat) (mstr : Memory) (left : Int) {count count' : Nat} (hcount : count > 0)
    (hcount' : count' > 0)
    : font.mbsLoop wc32 0 rounds mstr left count = font.mbsLoop wc32 0 rounds mstr left count' := by
  induction rounds generalizing mstr left count count' with
  | zero => rfl
  | succ rounds ih =>
    unfold mbsLoop
    rw [nextChar_count font mstr left hcount hcount']
    split
    . cases font.nextChar mstr left count' with
      | none => rfl
      | some next =>
        obtain ⟨len, uc32⟩ := next
        dsimp only
        rw [if_neg (by omega), if_neg (by omega),
          ih (mstr.advance len) (left - len) (Nat.succ_pos count) (Nat.succ_pos count')]
    . rfl

theorem mbsLoop_append {mstr : Memory} {left : Int} {count : Nat}
    (h : font.CharsTo mstr left count pos chars) (rounds : Nat) (hrounds : left.toNat ≤ rounds)
    (hn : n = 0 ∨ count + chars.length < n) : font.mbsLoop wc32 n rounds mstr left count
      = (chars.map (stored wc32) ++ (font.mbsLoop wc32 n rounds (mstr.advance pos) (left - pos) (count + chars.length)).1,
        pos + (font.mbsLoop wc32 n rounds (mstr.advance pos) (left - pos) (count + chars.length)).2) := by
  induction h generalizing rounds with
  | nil mstr left count => simp [Memory.advance_zero]
  | @cons mstr left count len pos uc32 chars hleft hne hnext rest ih =>
    have hlen := nextChar_pos hleft hne hnext
    rw [List.length_cons] at hn ⊢
    cases rounds with
    | zero => omega
    | succ rounds =>
      have hrest : font.mbsLoop wc32 n (rounds + 1) mstr left count
          = (stored wc32 uc32 :: (font.mbsLoop wc32 n rounds (mstr.advance len) (left - len) (count + 1)).1,
            len + (font.mbsLoop wc32 n rounds (mstr.advance len) (left - len) (count + 1)).2) := by
        rw [mbsLoop, if_pos ⟨hleft, hne⟩, hnext]
        dsimp only
        rw [if_neg (by omega)]
      have hcount : count + (chars.length + 1) = count + 1 + chars.length := by omega
      have hpos : left - ((len + pos : Nat) : Int) = left - len - pos := by omega
      have hrounds : font.mbsLoop wc32 n rounds (mstr.advance (len + pos)) (left - len - pos) (count + 1 + chars.length)
          = font.mbsLoop wc32 n (rounds + 1) (mstr.advance (len + pos)) (left - len - pos) (count + 1 + chars.length) :=
        mbsLoop_rounds _ _ (by omega) (by omega)
      rw [hrest, ih rounds (by omega) (by omega), Memory.advance_advance, hcount, hpos, hrounds, List.map_cons,
        List.cons_append]
      rw [Nat.add_assoc len pos]

theorem mbsLoop_spec (rounds : Nat) (mstr : Memory) (left : Int) (count : Nat) (hrounds : left.toNat ≤ rounds)
    (hcount : count < n)
    : (∃ pos chars, font.mbsLoop wc32 n rounds mstr left count = (chars.map (stored wc32), pos)
        ∧ font.CharsTo mstr left count pos chars ∧ count + chars.length < n
        ∧ (left - pos ≤ 0 ∨ mstr pos = 0
          ∨ left - pos > 0 ∧ mstr pos ≠ 0 ∧ font.nextChar (mstr.advance pos) (left - pos) (count + chars.length) = none))
      ∨ ∃ pos chars len uc32, font.mbsLoop wc32 n rounds mstr left count = ((chars ++ [uc32]).map (stored wc32), pos)
        ∧ font.CharsTo mstr left count pos chars ∧ left - pos > 0 ∧ mstr pos ≠ 0
        ∧ font.nextChar (mstr.advance pos) (left - pos) (count + chars.length) = some (len, uc32)
        ∧ count + chars.length + 1 = n := by
  induction rounds generalizing mstr left count with
  | zero => exact .inl ⟨0, [], rfl, .nil _ _ _, hcount, .inl (by omega)⟩
  | succ rounds ih =>
    by_cases hgo : left > 0 ∧ mstr 0 ≠ 0
    . obtain ⟨hleft, hne⟩ := hgo
      cases hnext : font.nextChar mstr left count with
      | none =>
        refine .inl ⟨0, [], ?_, .nil _ _ _, hcount, .inr (.inr ⟨by omega, hne, ?_⟩)⟩
        . rw [mbsLoop, if_pos ⟨hleft, hne⟩, hnext]
          rfl
        . rw [Memory.advance_zero, List.length_nil, Nat.add_zero, Int.natCast_zero, Int.sub_zero]
          exact hnext
      | some next =>
        obtain ⟨len, uc32⟩ := next
        have hlen := nextChar_pos hleft hne hnext
        by_cases hlimit : count + 1 = n
        . refine .inr ⟨0, [], len, uc32, ?_, .nil _ _ _, by omega, hne, ?_, hlimit⟩
          . rw [mbsLoop, if_pos ⟨hleft, hne⟩, hnext]
            dsimp only
            rw [if_pos hlimit]
            rfl
          . rw [Memory.advance_zero, List.length_nil, Nat.add_zero, Int.natCast_zero, Int.sub_zero]
            exact hnext
        have hloop : font.mbsLoop wc32 n (rounds + 1) mstr left count
            = (stored wc32 uc32 :: (font.mbsLoop wc32 n rounds (mstr.advance len) (left - len) (count + 1)).1,
              len + (font.mbsLoop wc32 n rounds (mstr.advance len) (left - len) (count + 1)).2) := by
          rw [mbsLoop, if_pos ⟨hleft, hne⟩, hnext]
          dsimp only
          rw [if_neg hlimit]
        have hat (pos : Nat) : left - ((len + pos : Nat) : Int) = left - len - pos := by omega
        have hsum (chars : List UInt32) : count + (uc32 :: chars).length = count + 1 + chars.length := by
          rw [List.length_cons]
          omega
        rcases ih (mstr.advance len) (left - len) (count + 1) (by omega) (by omega) with
          ⟨pos, chars, heq, hto, hless, hend⟩ | ⟨pos, chars, len', uc32', heq, hto, hleft', hne', hnext', hn⟩
        . refine .inl ⟨len + pos, uc32 :: chars, ?_, .cons hleft hne hnext hto, ?_, ?_⟩
          . rw [hloop, heq]
            rfl
          . rw [hsum]
            exact hless
          . rw [hat, hsum, ← Memory.advance_advance]
            exact hend
        refine .inr ⟨len + pos, uc32 :: chars, len', uc32', ?_, .cons hleft hne hnext hto, ?_, hne', ?_, ?_⟩
        . rw [hloop, heq]
          rfl
        . rw [hat]
          exact hleft'
        . rw [hat, hsum, ← Memory.advance_advance]
          exact hnext'
        . rw [hsum]
          exact hn
    refine .inl ⟨0, [], ?_, .nil _ _ _, hcount, ?_⟩
    . rw [mbsLoop, if_neg hgo]
      rfl
    . rcases not_and_or.mp hgo with hleft | hne
      . exact .inl (by omega)
      . exact .inr (.inl (not_not.mp hne))

end Loop

section Calls

variable {font : ConvFont} {wc32 : Bool} {mstr : Memory} {mstrLen n : Nat}

theorem mbs2wcsEx_nul
    (hloop : font.mbsLoop wc32 n mstrLen mstr mstrLen 0 = (chars, pos)) (hnul : mstr pos = 0)
    : font.mbs2wcsEx wc32 mstr mstrLen n = ⟨chars, chars.length < n, pos + 1, pos⟩ := by
  unfold mbs2wcsEx
  rw [hloop]
  rw [if_pos hnul]
  congr 1
  omega

theorem mbs2wcsEx_other
    (hloop : font.mbsLoop wc32 n mstrLen mstr mstrLen 0 = (chars, pos)) (hne : mstr pos ≠ 0)
    : font.mbs2wcsEx wc32 mstr mstrLen n = ⟨chars, false, pos, pos⟩ := by
  unfold mbs2wcsEx
  rw [hloop]
  rw [if_neg hne]
  congr 1
  omega

theorem mbs2wcsEx_chars : (font.mbs2wcsEx wc32 mstr mstrLen n).chars = (font.mbsLoop wc32 n mstrLen mstr mstrLen 0).1 := by
  unfold mbs2wcsEx
  dsimp only
  split
  . rfl
  . rfl

theorem unlimited_chars (h : unlimited > mstrLen)
    : (font.mbs2wcsEx wc32 mstr mstrLen unlimited).chars = (font.mbsLoop wc32 0 mstrLen mstr mstrLen 0).1 := by
  have hbelow : (0 : Nat) + (mstrLen : Int) < unlimited := by omega
  rw [mbs2wcsEx_chars, mbsLoop_unlimited mstrLen mstr hbelow]

theorem mbsCalls_nul (unlimited : Nat) (limits : List Nat) (hnul : ∀ i < mstrLen, mstr i = 0)
    : font.mbsCalls wc32 unlimited limits mstr mstrLen = [] := by
  have hloop (n : Nat) (mstr : Memory) (mstrLen : Nat) (hnul : ∀ i < mstrLen, mstr i = 0)
      : font.mbsLoop wc32 n mstrLen mstr mstrLen 0 = ([], 0) := by
    cases mstrLen with
    | zero => rfl
    | succ mstrLen => exact mbsLoop_nul _ _ 0 (hnul 0 (Nat.succ_pos _))
  induction limits generalizing mstr mstrLen with
  | nil =>
    unfold mbsCalls
    rw [mbs2wcsEx_chars, hloop unlimited mstr mstrLen hnul]
  | cons n limits ih =>
    unfold mbsCalls
    by_cases hfirst : mstr 0 = 0
    . rw [mbs2wcsEx_nul (hloop n mstr mstrLen hnul) hfirst]
      dsimp only
      split
      . refine ih fun i hi => hnul _ ?_
        omega
      . rfl
    have hzero : mstrLen = 0 := by
      by_contra hne
      exact hfirst (hnul 0 (Nat.pos_of_ne_zero hne))
    rw [mbs2wcsEx_other (hloop n mstr mstrLen hnul) hfirst, hzero]
    rfl

theorem mbsCalls_found (unlimited k : Nat) (hnul : ∀ j < k, mstr j = 0) (hne : mstr k ≠ 0) (hk : k < mstrLen)
    : font.mbsCalls wc32 unlimited (List.replicate k 1) mstr mstrLen ≠ [] := by
  induction k generalizing mstr mstrLen with
  | zero =>
    have hleft : (mstrLen : Int) > 0 := by omega
    obtain ⟨len, uc32, hnext⟩ := nextChar_first font hleft hne
    unfold List.replicate mbsCalls
    rw [mbs2wcsEx_chars]
    cases mstrLen with
    | zero => omega
    | succ rounds =>
      rw [mbsLoop, if_pos ⟨by omega, hne⟩, hnext]
      dsimp only
      split
      . exact List.cons_ne_nil _ _
      . exact List.cons_ne_nil _ _
  | succ k ih =>
    have hfirst : mstr 0 = 0 := hnul 0 (Nat.succ_pos k)
    rw [List.replicate_succ, mbsCalls, mbs2wcsEx_nul (mbsLoop_nul _ _ 0 hfirst) hfirst]
    dsimp only
    rw [if_pos (by omega)]
    refine ih (fun j hj => ?_) ?_ ?_
    . exact hnul (1 + j) (by omega)
    . change mstr (1 + k) ≠ 0
      rw [Nat.add_comm]
      exact hne
    . omega

theorem unlimited_append (hto : font.CharsTo mstr mstrLen 0 pos chars)
    : (font.mbsLoop wc32 0 mstrLen mstr mstrLen 0).1
      = chars.map (stored wc32)
        ++ (font.mbsLoop wc32 0 mstrLen (mstr.advance pos) ((mstrLen : Int) - pos) (0 + chars.length)).1 := by
  rw [mbsLoop_append hto mstrLen (by omega) (.inl rfl)]

theorem mbsResumes_of_ok (hok : font.MbsOk mstr mstrLen n) : font.MbsResumes wc32 mstr mstrLen n := by
  obtain ⟨pos, chars, hto, hpos, hless, hzero⟩ := hok
  have hnul : mstr pos = 0 := hzero pos (Nat.le_refl _) hpos
  have hloop (limit : Nat) (hlimit : limit = 0 ∨ 0 + chars.length < limit)
      : font.mbsLoop wc32 limit mstrLen mstr mstrLen 0 = (chars.map (stored wc32), pos) := by
    rw [mbsLoop_append hto mstrLen (by omega) hlimit, mbsLoop_nul _ _ _ hnul]
    simp
  have hcall := mbs2wcsEx_nul (hloop n (.inr (by omega))) hnul
  constructor
  case bounded =>
    rw [hcall]
    unfold WideText.written
    rw [List.length_map, if_pos (by simpa using hless)]
    omega
  case conved_nonneg =>
    rw [hcall]
    dsimp only
    omega
  case conved_le =>
    rw [hcall]
    dsimp only
    omega
  case inside =>
    rw [hcall]
    exact hpos
  case resumes =>
    intro unlimited hunlimited limits _
    rw [unlimited_chars hunlimited, hloop 0 (.inl rfl)]
    unfold mbsCalls
    rw [hcall]
    dsimp only
    have hrest : font.mbsCalls wc32 unlimited limits (mstr.advance ((pos : Int) + 1).toNat)
        (mstrLen - ((pos : Int) + 1).toNat) = [] := by
      refine mbsCalls_nul unlimited limits fun i hi => ?_
      exact hzero (((pos : Int) + 1).toNat + i) (by omega) (by omega)
    split
    . rw [hrest, List.append_nil]
    . rfl

theorem not_resumes_of_limit
    (hloop : font.mbsLoop wc32 n mstrLen mstr mstrLen 0 = ((chars ++ [uc32]).map (stored wc32), pos))
    (hto : font.CharsTo mstr mstrLen 0 pos chars) (hleft : (mstrLen : Int) - pos > 0) (hne : mstr pos ≠ 0)
    (hnext : font.nextChar (mstr.advance pos) (mstrLen - pos) (0 + chars.length) = some (len, uc32))
    : font.mbsCalls wc32 (mstrLen + 1) [n] mstr mstrLen ≠ (font.mbs2wcsEx wc32 mstr mstrLen (mstrLen + 1)).chars := by
  have hlen : ((mstrLen - pos : Nat) : Int) = (mstrLen : Int) - pos := by omega
  have hfirst := nextChar_of_first hnext
  have hlenPos := nextChar_pos hleft hne hnext
  -- what the resumed call does, and what the one call does, on the same character
  have hstep (count rounds : Nat) (hat : font.nextChar (mstr.advance pos) (mstrLen - pos) count = some (len, uc32))
      (hrounds : mstrLen - pos ≤ rounds)
      : (font.mbsLoop wc32 0 rounds (mstr.advance pos) ((mstrLen : Int) - pos) count).1
        = stored wc32 uc32 :: (font.mbsLoop wc32 0 rounds ((mstr.advance pos).advance len)
            ((mstrLen : Int) - pos - len) (count + 1)).1 := by
    cases rounds with
    | zero => omega
    | succ rounds =>
      have hmore : font.mbsLoop wc32 0 rounds ((mstr.advance pos).advance len) ((mstrLen : Int) - pos - len) (count + 1)
          = font.mbsLoop wc32 0 (rounds + 1) ((mstr.advance pos).advance len) ((mstrLen : Int) - pos - len)
            (count + 1) := mbsLoop_rounds _ _ (by omega) (by omega)
      rw [mbsLoop, if_pos ⟨hleft, hne⟩, hat]
      dsimp only
      rw [if_neg (by omega), hmore]
  have hunlimited : (mstrLen + 1) > mstrLen - pos := by omega
  rw [unlimited_chars (Nat.lt_succ_self mstrLen), unlimited_append hto, hstep _ mstrLen hnext (by omega)]
  unfold mbsCalls
  rw [mbs2wcsEx_other hloop hne]
  dsimp only
  rw [if_pos (by omega), Int.toNat_natCast, mbsCalls, unlimited_chars hunlimited, hlen,
    hstep 0 (mstrLen - pos) hfirst (Nat.le_refl _)]
  have hsame : (font.mbsLoop wc32 0 (mstrLen - pos) ((mstr.advance pos).advance len) ((mstrLen : Int) - pos - len)
        (0 + 1)).1
      = (font.mbsLoop wc32 0 mstrLen ((mstr.advance pos).advance len) ((mstrLen : Int) - pos - len)
        (0 + chars.length + 1)).1 := by
    rw [mbsLoop_count _ _ _ (Nat.succ_pos 0) (Nat.succ_pos (0 + chars.length)),
      mbsLoop_rounds _ _ (by omega) (show ((mstrLen : Int) - pos - len).toNat ≤ mstrLen by omega)]
  rw [hsame]
  intro heq
  have hlength := congrArg List.length heq
  simp only [List.length_append, List.length_map, List.length_cons, List.length_nil] at hlength
  omega

theorem not_resumes_of_stray
    (hloop : font.mbsLoop wc32 n mstrLen mstr mstrLen 0 = (chars.map (stored wc32), pos))
    (hto : font.CharsTo mstr mstrLen 0 pos chars) (hleft : (mstrLen : Int) - pos > 0) (hne : mstr pos ≠ 0)
    (hnext : font.nextChar (mstr.advance pos) (mstrLen - pos) (0 + chars.length) = none)
    : font.mbsCalls wc32 (mstrLen + 1) [n] mstr mstrLen ≠ (font.mbs2wcsEx wc32 mstr mstrLen (mstrLen + 1)).chars := by
  have hend : font.mbsLoop wc32 0 mstrLen (mstr.advance pos) ((mstrLen : Int) - pos) (0 + chars.length) = ([], 0) := by
    cases mstrLen with
    | zero => rfl
    | succ rounds => rw [mbsLoop, if_pos ⟨hleft, hne⟩, hnext]
  have hfound : font.mbsCalls wc32 (mstrLen + 1) [] (mstr.advance pos) (mstrLen - pos) ≠ [] :=
    mbsCalls_found _ 0 (fun j hj => absurd hj (Nat.not_lt_zero j)) hne (by omega)
  rw [unlimited_chars (Nat.lt_succ_self mstrLen), unlimited_append hto, hend]
  unfold mbsCalls
  rw [mbs2wcsEx_other hloop hne]
  dsimp only
  rw [if_pos (by omega), Int.toNat_natCast]
  intro heq
  exact hfound (List.append_cancel_left heq)

theorem mbsOk_of_resumes (hn : n ≥ 1) (h : font.MbsResumes wc32 mstr mstrLen n) : font.MbsOk mstr mstrLen n := by
  have htwice := h.resumes (mstrLen + 1) (Nat.lt_succ_self mstrLen)
  have hrounds : (mstrLen : Int).toNat ≤ mstrLen := by omega
  rcases @mbsLoop_spec font wc32 n mstrLen mstr mstrLen 0 hrounds hn with
    ⟨pos, chars, hloop, hto, hless, hend⟩ | ⟨pos, chars, len, uc32, hloop, hto, hleft, hne, hnext, -⟩
  . by_cases hnul : mstr pos = 0
    . have hcall := mbs2wcsEx_nul hloop hnul
      have hpos : pos < mstrLen := by
        have hinside := h.inside
        rw [hcall] at hinside
        exact hinside
      refine ⟨pos, chars, hto, hpos, by omega, ?_⟩
      by_contra hother
      -- the first byte behind the zero that is not zero
      have hex : ∃ i, pos ≤ i ∧ i < mstrLen ∧ mstr i ≠ 0 := by
        by_contra hnone
        refine hother fun i hle hlt => ?_
        by_contra hne
        exact hnone ⟨i, hle, hlt, hne⟩
      classical
      obtain ⟨hle, hlt, hne⟩ := Nat.find_spec hex
      have hbefore (j : Nat) (hj : j < Nat.find hex) (hposj : pos ≤ j) : mstr j = 0 := by
        by_contra hne'
        exact Nat.find_min hex hj ⟨hposj, by omega, hne'⟩
      generalize Nat.find hex = i at hle hlt hne hbefore
      have hgt : pos < i := by
        rcases Nat.lt_or_eq_of_le hle with hgt | heq
        . exact hgt
        . exact absurd (heq ▸ hnul) hne
      have hcalls := htwice (List.replicate (i - pos - 1) 1) (fun n hn => (List.eq_of_mem_replicate hn).ge)
      have hloopEnd : (font.mbsLoop wc32 0 mstrLen mstr mstrLen 0).1 = chars.map (stored wc32) := by
        rw [unlimited_append hto, mbsLoop_nul _ _ _ hnul, List.append_nil]
      rw [unlimited_chars (Nat.lt_succ_self mstrLen), hloopEnd, mbsCalls, hcall] at hcalls
      dsimp only at hcalls
      rw [if_pos (by omega)] at hcalls
      have hnat : ((pos : Int) + 1).toNat = pos + 1 := by omega
      rw [hnat] at hcalls
      refine mbsCalls_found _ (i - pos - 1) (fun j hj => ?_) ?_ ?_ (List.append_right_eq_self.mp hcalls)
      . exact hbefore _ (by omega) (by omega)
      . have hat : pos + 1 + (i - pos - 1) = i := by omega
        change mstr (pos + 1 + (i - pos - 1)) ≠ 0
        rw [hat]
        exact hne
      . omega
    rcases hend with hover | hzero | ⟨hleft, -, hnext⟩
    . have hinside := h.inside
      rw [mbs2wcsEx_other hloop hnul] at hinside
      dsimp only at hinside
      omega
    . exact absurd hzero hnul
    . exact absurd (htwice [] (fun n hn => nomatch hn)) (not_resumes_of_stray hloop hto hleft hnul hnext)
  . exact absurd (htwice [] (fun n hn => nomatch hn)) (not_resumes_of_limit hloop hto hleft hne hnext)

end Calls

end MiniGui.ConvFont
