import MiniGui.Font.UnicodeRoundTrip

namespace MiniGui

def utfNrCharsLoop (lenFirst : List UInt8 → Nat → Option Nat) : Nat → List UInt8 → Int → Nat → Option Nat
  | 0, _, _, _ => none
  | rounds + 1, mstr, left, n =>
    if left ≥ 0 then
      (lenFirst mstr left.toNat).bind fun charlen =>
        utfNrCharsLoop lenFirst rounds (mstr.drop charlen) (left - charlen) (if charlen > 0 then n + 1 else n)
    else
      some n

def gb18030NrCharsLoop : Nat → List UInt8 → Nat → Nat → Option Nat
  | 0, _, _, _ => none
  | rounds + 1, mstr, left, n =>
    if left = 0 then
      some n
    else
      (if left ≥ 2 then mstr[1]?.map fun ch => decide (ch ≥ 0x40) else some false).bind fun pair =>
        if pair then
          gb18030NrCharsLoop rounds (mstr.drop 2) (left - 2) (n + 1)
        else if left ≥ 4 then
          gb18030NrCharsLoop rounds (mstr.drop 4) (left - 4) (n + 1)
        else
          some n

/--
The whole buffer is counted. Nothing stands for a read behind it, a failed assertion, or a loop that needs more rounds.
-/
def nrCharsInStr (rounds : Nat) (enc : Encoding) (mstr : List UInt8) : Option Nat :=
  match enc with
  | .gb18030 => if mstr.length % 2 = 0 then gb18030NrCharsLoop rounds mstr mstr.length 0 else none
  | enc => utfNrCharsLoop (lenFirstChar enc.charset) rounds mstr mstr.length 0

inductive SplitsInto (cs : Charset) : List UInt8 → Nat → Prop where
  | nil : SplitsInto cs [] 0
  | cons (mstr : List UInt8) (k n : Nat) : lenFirstChar cs mstr mstr.length = some k → 0 < k → k ≤ mstr.length →
      SplitsInto cs (mstr.drop k) n → SplitsInto cs mstr (n + 1)

def CountsChars (enc : Encoding) (mstr : List UInt8) : Prop :=
  ∃ rounds r, nrCharsInStr rounds enc mstr = some r ∧ ∀ n, SplitsInto enc.charset mstr n → r = n

inductive RunsOver (cs : Charset) : List UInt8 → Prop where
  | last (mstr : List UInt8) (k : Nat) : lenFirstChar cs mstr mstr.length = some k → mstr.length < k → RunsOver cs mstr
  | char (mstr : List UInt8) (k : Nat) : lenFirstChar cs mstr mstr.length = some k → 0 < k → k ≤ mstr.length →
      RunsOver cs (mstr.drop k) → RunsOver cs mstr

theorem lenFirstChar_nil {cs : Charset} {k : Nat} (h : lenFirstChar cs [] 0 = some k) : k = 0 := by
  cases cs
  case utf8 => cases h
  all_goals exact (Option.some.inj h).symm

theorem RunsOver.not_splitsInto {cs : Charset} {mstr : List UInt8} (h : RunsOver cs mstr) (n : Nat)
    : ¬SplitsInto cs mstr n := by
  induction h generalizing n with
  | last mstr k hk hlt =>
    intro hsplits
    cases hsplits with
    | nil =>
      rw [lenFirstChar_nil hk] at hlt
      cases hlt
    | cons _ k' _ hk' _ hle _ =>
      rw [Option.some.inj (hk.symm.trans hk')] at hlt
      omega
  | char mstr k hk hpos hle _ ih =>
    intro hsplits
    cases hsplits with
    | nil =>
      rw [lenFirstChar_nil hk] at hpos
      cases hpos
    | cons _ k' n hk' _ _ hrest =>
      rw [Option.some.inj (hk.symm.trans hk')] at ih
      exact ih n hrest

section Unicode

variable {cs : Charset} {mstr : List UInt8}

theorem runsOver_of_loop {rounds n r : Nat}
    (h : utfNrCharsLoop (lenFirstChar cs) rounds mstr mstr.length n = some r) : RunsOver cs mstr := by
  induction rounds generalizing mstr n with
  | zero => cases h
  | succ rounds ih =>
    rw [utfNrCharsLoop, if_pos (Int.natCast_nonneg _), Int.toNat_natCast] at h
    obtain ⟨k, hk, hrest⟩ := Option.bind_eq_some_iff.mp h
    rcases Nat.lt_or_ge mstr.length k with hlt | hle
    . exact .last mstr k hk hlt
    rw [← Int.ofNat_sub hle, ← List.length_drop] at hrest
    rcases Nat.eq_zero_or_pos k with rfl | hpos
    . exact ih hrest
    . exact .char mstr k hk hpos hle (ih hrest)

theorem loop_of_runsOver (h : RunsOver cs mstr) (n : Nat)
    : ∃ rounds r, utfNrCharsLoop (lenFirstChar cs) rounds mstr mstr.length n = some r := by
  induction h generalizing n with
  | last mstr k hk hlt =>
    refine ⟨2, if k > 0 then n + 1 else n, ?_⟩
    rw [utfNrCharsLoop, if_pos (Int.natCast_nonneg _), Int.toNat_natCast, hk, Option.bind_some, utfNrCharsLoop,
      if_neg (by omega)]
  | char mstr k hk _ hle _ ih =>
    obtain ⟨rounds, r, hloop⟩ := ih (if k > 0 then n + 1 else n)
    refine ⟨rounds + 1, r, ?_⟩
    rw [utfNrCharsLoop, if_pos (Int.natCast_nonneg _), Int.toNat_natCast, hk, Option.bind_some, ← Int.ofNat_sub hle,
      ← List.length_drop, hloop]

theorem countsChars_unicode {enc : Encoding} (henc : enc ≠ .gb18030)
    : CountsChars enc mstr ↔ RunsOver enc.charset mstr := by
  have hloop : ∀ rounds, nrCharsInStr rounds enc mstr
      = utfNrCharsLoop (lenFirstChar enc.charset) rounds mstr mstr.length 0 := by
    intro rounds
    cases enc with
    | gb18030 => exact absurd rfl henc
    | utf8 => rfl
    | utf16 be => rfl
  constructor
  . rintro ⟨rounds, r, heq, _⟩
    rw [hloop] at heq
    exact runsOver_of_loop heq
  . intro h
    obtain ⟨rounds, r, heq⟩ := loop_of_runsOver h 0
    exact ⟨rounds, r, (hloop rounds).trans heq, fun n hsplits => absurd hsplits (h.not_splitsInto n)⟩

end Unicode

theorem gb18030_second {ch1 ch2 : UInt8} {rest : List UInt8} {len k : Nat}
    (h : gb18030LenFirstChar (ch1 :: ch2 :: rest) len = some k) (hk : 0 < k)
    : if ch2 ≥ 0x40 then k = 2 else k = 4 ∧ 4 ≤ len := by
  have hzero : ∀ {p : Prop}, some 0 = some k → p := fun heq => absurd (Option.some.inj heq) (Nat.ne_of_lt hk)
  unfold gb18030LenFirstChar at h
  split at h
  next => exact hzero h
  next =>
    rw [List.getElem?_cons_zero, Option.bind_some] at h
    split at h
    next => exact hzero h
    next =>
      rw [List.getElem?_cons_succ, List.getElem?_cons_zero, Option.bind_some] at h
      by_cases hgbk : isGbkChar ch1 ch2 = true
      . rw [if_pos hgbk] at h
        unfold isGbkChar at hgbk
        rw [if_pos (by grind)]
        exact (Option.some.inj h).symm
      rw [if_neg hgbk] at h
      split at h
      next => exact hzero h
      next hlen =>
        obtain ⟨ch3, _, h⟩ := Option.bind_eq_some_iff.mp h
        obtain ⟨ch4, _, h⟩ := Option.bind_eq_some_iff.mp h
        split at h
        next hquad =>
          unfold isGb18030Quad at hquad
          rw [if_neg (by grind)]
          exact ⟨(Option.some.inj h).symm, by omega⟩
        next => exact hzero h

theorem gb18030_loop (mstr : List UInt8) (n : Nat)
    : ∃ rounds r, gb18030NrCharsLoop rounds mstr mstr.length n = some r
      ∧ ∀ k, SplitsInto .gb18030 mstr k → r = n + k := by
  induction hlen : mstr.length using Nat.strong_induction_on generalizing mstr n with
  | _ left ih =>
    subst hlen
    match mstr with
    | [] =>
      refine ⟨1, n, rfl, ?_⟩
      intro k hk
      cases hk with
      | nil => rfl
      | cons _ _ _ _ hpos hle _ => exact absurd hle (Nat.not_le.mpr hpos)
    | [ch] =>
      refine ⟨1, n, rfl, ?_⟩
      intro k hk
      cases hk with
      | cons _ _ _ hfirst hpos _ _ =>
        rw [← Option.some.inj hfirst] at hpos
        cases hpos
    | ch1 :: ch2 :: rest =>
      have hlength : (ch1 :: ch2 :: rest).length = rest.length + 2 := rfl
      by_cases hpair : ch2 ≥ 0x40
      . obtain ⟨rounds, r, heq, hsplits⟩ := ih rest.length (by omega) rest (n + 1) rfl
        refine ⟨rounds + 1, r, ?_, ?_⟩
        . rw [← heq, gb18030NrCharsLoop]
          simp [hpair]
        intro k hk
        cases hk with
        | cons _ _ k hfirst hpos _ hrest =>
          have hsecond := gb18030_second hfirst hpos
          rw [if_pos hpair] at hsecond
          rw [hsecond] at hrest
          rw [hsplits k hrest, Nat.add_right_comm, Nat.add_assoc]
      by_cases hfour : 4 ≤ (ch1 :: ch2 :: rest).length
      . have hdrop : ((ch1 :: ch2 :: rest).drop 4).length = (ch1 :: ch2 :: rest).length - 4 := List.length_drop
        obtain ⟨rounds, r, heq, hsplits⟩ := ih ((ch1 :: ch2 :: rest).length - 4) (by omega)
          ((ch1 :: ch2 :: rest).drop 4) (n + 1) hdrop
        refine ⟨rounds + 1, r, ?_, ?_⟩
        . rw [← heq, gb18030NrCharsLoop]
          simp [hpair]
          omega
        intro k hk
        cases hk with
        | cons _ _ k hfirst hpos _ hrest =>
          have hsecond := gb18030_second hfirst hpos
          rw [if_neg hpair] at hsecond
          rw [hsecond.1] at hrest
          rw [hsplits k hrest, Nat.add_right_comm, Nat.add_assoc]
      refine ⟨1, n, ?_, ?_⟩
      . rw [gb18030NrCharsLoop]
        simp [hpair]
        omega
      intro k hk
      cases hk with
      | cons _ _ _ hfirst hpos _ _ =>
        have hsecond := gb18030_second hfirst hpos
        rw [if_neg hpair] at hsecond
        exact absurd hsecond.2 hfour

theorem countsChars_iff (enc : Encoding) (mstr : List UInt8) (heven : enc = .gb18030 → mstr.length % 2 = 0)
    : CountsChars enc mstr ↔ enc = .gb18030 ∨ RunsOver enc.charset mstr := by
  by_cases henc : enc = .gb18030
  . obtain ⟨rounds, r, heq, hsplits⟩ := gb18030_loop mstr 0
    apply iff_of_true _ (Or.inl henc)
    refine ⟨rounds, r, ?_, ?_⟩
    . rw [henc, nrCharsInStr, if_pos (heven henc), heq]
    . rw [henc]
      exact fun n hn => (hsplits n hn).trans (Nat.zero_add n)
  . rw [or_iff_right henc]
    exact countsChars_unicode henc

theorem countsChars_pair : CountsChars .gb18030 [0xB0, 0xA1] :=
  (countsChars_iff .gb18030 [0xB0, 0xA1] (by decide)).mpr (Or.inl rfl)

theorem not_countsChars
    : ¬∀ (enc : Encoding) (mstr : List UInt8), (enc = .gb18030 → mstr.length % 2 = 0) → CountsChars enc mstr := by
  intro h
  have hover := (countsChars_unicode (by decide)).mp (h (.utf16 false) [] (fun henc => by cases henc))
  cases hover with
  | last _ k hk hlt =>
    rw [lenFirstChar_nil hk] at hlt
    cases hlt
  | char _ k hk hpos _ _ =>
    rw [lenFirstChar_nil hk] at hpos
    cases hpos

end MiniGui
