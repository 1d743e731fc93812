import MiniGui.Font.TextOpsExact
import MiniGui.Font.SegmentsExact
import MiniGui.Font.UnicodeRoundTrip

namespace MiniGui

open List Option

open UInt8 (ofNat toNat_inj)

def IsBlank (ch : Nat) : Prop :=
  ch = 0x20 ∨ ch = 0x09 ∨ ch = 0x0A ∨ ch = 0x0D

instance : DecidablePred IsBlank :=
  fun ch => inferInstanceAs (Decidable (ch = 0x20 ∨ ch = 0x09 ∨ ch = 0x0A ∨ ch = 0x0D))

/--
What the functions of the Unicode forms have of their own. `switched` is what the `switch` looks at.
-/
structure WordOps where
  lenFirstChar : List UInt8 → Option Nat
  convToUc32 : List UInt8 → Option Nat
  switched : List UInt8 → Option Nat
  counted : Nat → Nat
  len_nil : ∀ k, lenFirstChar [] = some k → k = 0
  len_read : ∀ text, text ≠ [] → ∃ k, lenFirstChar text = some k
  conv_read : ∀ text k, lenFirstChar text = some k → 0 < k → k ≤ text.length →
    ∃ wc ch, convToUc32 text = some wc ∧ switched text = some ch
  conv_behind : ∀ text k, lenFirstChar text = some k → text.length < k → convToUc32 text = none
  wide_letter : ∀ text wc ch, convToUc32 text = some wc → 0x0FFF < wc → switched text = some ch → ¬IsBlank ch
  counted_eq : ∀ text k ch, lenFirstChar text = some k → 0 < k → switched text = some ch → IsBlank ch → counted k = k

namespace WordOps

variable (ops : WordOps)

def wordLoop : Nat → List UInt8 → WordInfo → Option WordInfo
  | 0, _, _ => none
  | rounds + 1, mchar, info =>
    if mchar = [] then
      some info
    else
      (ops.lenFirstChar mchar).bind fun chLen =>
        if chLen = 0 then
          some info
        else
          (ops.convToUc32 mchar).bind fun wc =>
            if wc > 0x0FFF then
              some (if info.len > 0 then info else { info with len := chLen })
            else
              (ops.switched mchar).bind fun ch =>
                if IsBlank ch then
                  if info.delimiter = 0 then
                    wordLoop rounds (mchar.drop chLen)
                      { info with delimiter := UInt8.ofNat ch, nrDelimiters := info.nrDelimiters + ops.counted chLen }
                  else if info.delimiter = UInt8.ofNat ch then
                    wordLoop rounds (mchar.drop chLen)
                      { info with nrDelimiters := info.nrDelimiters + ops.counted chLen }
                  else
                    some info
                else if info.delimiter ≠ 0 then
                  some info
                else
                  wordLoop rounds (mchar.drop chLen) { info with len := info.len + chLen }

def getNextWord (mstr : List UInt8) : Option WordInfo :=
  ops.wordLoop (mstr.length + 1) mstr ⟨0, 0, 0⟩

end WordOps

inductive Chars (lenFirst : List UInt8 → Option Nat) (p : List UInt8 → Prop) : Nat → List UInt8 → Prop where
  | nil (text : List UInt8) : Chars lenFirst p 0 text
  | char (text : List UInt8) (k n : Nat) : lenFirst text = some k → 0 < k → k ≤ text.length → p text →
      Chars lenFirst p n (text.drop k) → Chars lenFirst p (k + n) text

variable {k wc : Nat} {c : UInt8}

section Chars

variable {lenFirst : List UInt8 → Option Nat} {p q : List UInt8 → Prop} {n : Nat} {text : List UInt8}

theorem Chars.le (h : Chars lenFirst p n text) : n ≤ text.length := by
  induction h with
  | nil => exact Nat.zero_le _
  | char text k n hk hpos hle hp rest ih =>
    rw [length_drop] at ih
    omega

theorem Chars.first (h : Chars lenFirst p n text) (hn : 0 < n)
    : ∃ k m, n = k + m ∧ lenFirst text = some k ∧ 0 < k ∧ p text ∧ Chars lenFirst p m (text.drop k) := by
  cases h with
  | nil => exact absurd hn (Nat.lt_irrefl 0)
  | char _ k m hk hpos hle hp rest => exact ⟨k, m, rfl, hk, hpos, hp, rest⟩

variable {Q : Nat → List UInt8 → Prop}

theorem forall_chars_of_not (h : ∀ k, lenFirst text = some k → 0 < k → ¬p text)
    : (∀ n, Chars lenFirst p n text → Q n (text.drop n)) ↔ Q 0 text := by
  constructor
  . exact fun hall => hall 0 (.nil text)
  intro hzero n hn
  cases hn with
  | nil => exact hzero
  | char _ k n hk hpos hle hp rest => exact absurd hp (h k hk hpos)

theorem forall_chars_of_first (hk : lenFirst text = some k) (hpos : 0 < k)
    (hle : k ≤ text.length) (hp : p text) : (∀ n, Chars lenFirst p n text → Q n (text.drop n))
        ↔ Q 0 text ∧ ∀ n, Chars lenFirst p n (text.drop k) → Q (k + n) ((text.drop k).drop n) := by
  constructor
  . intro hall
    refine ⟨hall 0 (.nil text), fun n hn => ?_⟩
    rw [drop_drop]
    exact hall (k + n) (.char text k n hk hpos hle hp hn)
  rintro ⟨hzero, hall⟩ n hn
  cases hn with
  | nil => exact hzero
  | char _ k' n hk' _ _ _ rest =>
    obtain rfl := Option.some.inj (hk.symm.trans hk')
    rw [← drop_drop]
    exact hall n rest

end Chars

structure IsWord (lenFirst switched : List UInt8 → Option Nat) (info : WordInfo) (text : List UInt8) : Prop where
  pos : 0 < info.wordLen
  le : info.wordLen ≤ text.length
  letters : Chars lenFirst (fun text => ∀ ch, switched text = some ch → ¬IsBlank ch) info.len text
  delimiters : Chars lenFirst (fun text => switched text = some info.delimiter.toNat) info.nrDelimiters
    (text.drop info.len)

namespace WordOps

variable {ops : WordOps} {text : List UInt8}

def Narrow (ops : WordOps) (text : List UInt8) : Prop :=
  ∃ wc, ops.convToUc32 text = some wc ∧ wc ≤ 0x0FFF

def Letter (ops : WordOps) (text : List UInt8) : Prop :=
  ∀ ch, ops.switched text = some ch → ¬IsBlank ch

def At (ops : WordOps) (d : Nat) (text : List UInt8) : Prop :=
  ops.switched text = some d

def BlanksEnd (ops : WordOps) (len : Nat) (text : List UInt8) : Prop :=
  ∀ k, ops.lenFirstChar text = some k → k ≤ text.length ∧ (len = 0 → 0 < k → ops.Narrow text)

def BlanksOk (ops : WordOps) (len d : Nat) (text : List UInt8) : Prop :=
  ∀ m, Chars ops.lenFirstChar (fun text => ops.Narrow text ∧ ops.At d text) m text → ops.BlanksEnd len (text.drop m)

def LettersEnd (ops : WordOps) (len : Nat) (text : List UInt8) : Prop :=
  ∀ k, ops.lenFirstChar text = some k → k ≤ text.length
    ∧ (0 < k → ∀ d, IsBlank d → ops.At d text → ops.Narrow text → ops.BlanksOk len d text)

/--
Behind letters, and behind letters and blanks of one kind, there is no character that is longer than what is left, and
no wide one behind blanks without letters.
-/
def LettersOk (ops : WordOps) (len : Nat) (text : List UInt8) : Prop :=
  ∀ n, Chars ops.lenFirstChar (fun text => ops.Narrow text ∧ ops.Letter text) n text →
    ops.LettersEnd (len + n) (text.drop n)

inductive First (ops : WordOps) (text : List UInt8) : Prop where
  | stop : (text = [] ∨ ops.lenFirstChar text = some 0) → First ops text
  | over (k : Nat) : text ≠ [] → ops.lenFirstChar text = some k → text.length < k → First ops text
  | wide (k wc : Nat) : text ≠ [] → ops.lenFirstChar text = some k → 0 < k → k ≤ text.length →
      ops.convToUc32 text = some wc → 0x0FFF < wc → First ops text
  | narrow (k wc ch : Nat) : text ≠ [] → ops.lenFirstChar text = some k → 0 < k → k ≤ text.length →
      ops.convToUc32 text = some wc → wc ≤ 0x0FFF → ops.switched text = some ch → First ops text

theorem first (ops : WordOps) (text : List UInt8) : First ops text := by
  by_cases hne : text = []
  . exact .stop (.inl hne)
  obtain ⟨k, hk⟩ := ops.len_read text hne
  rcases Nat.eq_zero_or_pos k with rfl | hpos
  . exact .stop (.inr hk)
  rcases Nat.lt_or_ge text.length k with hover | hle
  . exact .over k hne hk hover
  obtain ⟨wc, ch, hwc, hch⟩ := ops.conv_read text k hk hpos hle
  rcases Nat.lt_or_ge 0x0FFF wc with hwide | hnarrow
  . exact .wide k wc hne hk hpos hle hwc hwide
  . exact .narrow k wc ch hne hk hpos hle hwc hnarrow hch

variable {ch rounds : Nat} {info : WordInfo}

theorem toNat_blank (h : IsBlank ch) : (ofNat ch).toNat = ch ∧ ofNat ch ≠ 0 := by
  rcases h with rfl | rfl | rfl | rfl <;> decide

theorem ofNat_inj {a b : Nat} (ha : IsBlank a) (hb : IsBlank b) (h : ofNat a = ofNat b) : a = b := by
  rw [← (toNat_blank ha).1, h, (toNat_blank hb).1]

theorem not_narrow (hwc : ops.convToUc32 text = some wc) (h : 0x0FFF < wc) : ¬ops.Narrow text := by
  rintro ⟨wc', hwc', hle⟩
  rw [Option.some.inj (hwc.symm.trans hwc')] at h
  omega

theorem stop_len (h : text = [] ∨ ops.lenFirstChar text = some 0) (hk : ops.lenFirstChar text = some k)
    : k = 0 := by
  rcases h with rfl | hzero
  . exact ops.len_nil k hk
  . exact Option.some.inj (hk.symm.trans hzero)

theorem wordLoop_narrow (hne : text ≠ [])
    (hk : ops.lenFirstChar text = some k) (hpos : 0 < k) (hwc : ops.convToUc32 text = some wc) (hnarrow : wc ≤ 0x0FFF)
    (hch : ops.switched text = some ch) : ops.wordLoop (rounds + 1) text info
        = if IsBlank ch then
            if info.delimiter = 0 then
              ops.wordLoop rounds (text.drop k)
                { info with delimiter := ofNat ch, nrDelimiters := info.nrDelimiters + ops.counted k }
            else if info.delimiter = ofNat ch then
              ops.wordLoop rounds (text.drop k) { info with nrDelimiters := info.nrDelimiters + ops.counted k }
            else
              some info
          else if info.delimiter ≠ 0 then
            some info
          else
            ops.wordLoop rounds (text.drop k) { info with len := info.len + k } := by
  rw [wordLoop, if_neg hne, hk, bind_some, if_neg (by omega), hwc, bind_some, if_neg (by omega), hch,
    bind_some]

theorem wordLoop_stop (h : text = [] ∨ ops.lenFirstChar text = some 0)
    : ops.wordLoop (rounds + 1) text info = some info := by
  rw [wordLoop]
  split
  . rfl
  next hne => rw [h.resolve_left hne, bind_some, if_pos rfl]

theorem wordLoop_over (hne : text ≠ []) (hk : ops.lenFirstChar text = some k)
    (hover : text.length < k) : ops.wordLoop (rounds + 1) text info = none := by
  rw [wordLoop, if_neg hne, hk, bind_some, if_neg (by omega), ops.conv_behind text k hk hover]
  rfl

theorem blanksEnd_narrow (len : Nat) (hk : ops.lenFirstChar text = some k) (hle : k ≤ text.length)
    (hnarrow : ops.Narrow text) : ops.BlanksEnd len text := by
  intro k' hk'
  rw [← Option.some.inj (hk.symm.trans hk')]
  exact ⟨hle, fun _ _ => hnarrow⟩

theorem blanksOk_drop (len : Nat) {d : Nat} (hk : ops.lenFirstChar text = some k) (hpos : 0 < k)
    (hle : k ≤ text.length) (hnarrow : ops.Narrow text) (hd : ops.At d text)
    : ops.BlanksOk len d text ↔ ops.BlanksOk len d (text.drop k) :=
  (forall_chars_of_first hk hpos hle ⟨hnarrow, hd⟩ (Q := fun _ => ops.BlanksEnd len)).trans
    (and_iff_right (blanksEnd_narrow len hk hle hnarrow))

def TakesBlanks (ops : WordOps) (len d nr : Nat) (text : List UInt8) (result : Option WordInfo) : Prop :=
  (ops.BlanksOk len d text →
      ∃ m, result = some ⟨len, UInt8.ofNat d, nr + m⟩ ∧ Chars ops.lenFirstChar (ops.At d) m text)
    ∧ (¬ops.BlanksOk len d text → ∀ info, result = some info → len = 0 ∧ 0 < info.len)

theorem blanks_spec {rounds : Nat} (h : text.length < rounds) (len : Nat) {d : Nat} (hd : IsBlank d) (nr : Nat)
    : ops.TakesBlanks len d nr text (ops.wordLoop rounds text ⟨len, ofNat d, nr⟩) := by
  have hdelim := (toNat_blank hd).2
  induction rounds generalizing text nr with
  | zero => omega
  | succ rounds ih =>
    -- the loop ends here, and so do the blanks
    have hstay : ops.wordLoop (rounds + 1) text ⟨len, ofNat d, nr⟩ = some ⟨len, ofNat d, nr⟩ →
        ops.BlanksEnd len text → (∀ k, ops.lenFirstChar text = some k → 0 < k → ¬(ops.Narrow text ∧ ops.At d text)) →
        ops.TakesBlanks len d nr text (ops.wordLoop (rounds + 1) text ⟨len, ofNat d, nr⟩) := by
      intro hloop hend hother
      have hok : ops.BlanksOk len d text := (forall_chars_of_not hother (Q := fun _ => ops.BlanksEnd len)).mpr hend
      exact ⟨fun _ => ⟨0, hloop, .nil text⟩, fun hbad => absurd hok hbad⟩
    rcases ops.first text with hstop | ⟨k, hne, hk, hover⟩ | ⟨k, wc, hne, hk, hpos, hle, hwc, hwide⟩
      | ⟨k, wc, ch, hne, hk, hpos, hle, hwc, hnarrow, hch⟩
    . apply hstay (wordLoop_stop hstop)
      . intro k hk
        have := stop_len hstop hk
        exact ⟨by omega, fun _ hpos => by omega⟩
      . intro k hk hpos
        have := stop_len hstop hk
        omega
    . constructor
      . intro hok
        have := (hok 0 (.nil text) k hk).1
        rw [drop_zero] at this
        omega
      . intro _ info hinfo
        rw [wordLoop_over hne hk hover] at hinfo
        cases hinfo
    . rcases Nat.eq_zero_or_pos len with rfl | hlen
      . constructor
        . intro hok
          exact absurd ((hok 0 (.nil text) k hk).2 rfl hpos) (not_narrow hwc hwide)
        intro _ info hinfo
        rw [wordLoop, if_neg hne, hk, bind_some, if_neg (by omega), hwc, bind_some, if_pos hwide,
          if_neg (Nat.lt_irrefl 0)] at hinfo
        rw [← Option.some.inj hinfo]
        exact ⟨rfl, hpos⟩
      apply hstay
      . rw [wordLoop, if_neg hne, hk, bind_some, if_neg (by omega), hwc, bind_some, if_pos hwide,
          if_pos hlen]
      . intro k' hk'
        rw [← Option.some.inj (hk.symm.trans hk')]
        exact ⟨hle, fun hzero => by omega⟩
      . exact fun _ _ _ hboth => not_narrow hwc hwide hboth.1
    have hend := blanksEnd_narrow len hk hle ⟨wc, hwc, hnarrow⟩
    by_cases hsame : ch = d
    . subst hsame
      have hrest := @ih (text.drop k) (by rw [length_drop]; omega) (nr + k)
      rw [wordLoop_narrow hne hk hpos hwc hnarrow hch, if_pos hd, if_neg hdelim, if_pos rfl,
        ops.counted_eq text k ch hk hpos hch hd]
      have hiff := blanksOk_drop len hk hpos hle ⟨wc, hwc, hnarrow⟩ hch
      refine ⟨fun hok => ?_, fun hbad => hrest.2 fun hok => hbad (hiff.mpr hok)⟩
      obtain ⟨m, heq, hchars⟩ := hrest.1 (hiff.mp hok)
      refine ⟨k + m, ?_, .char text k m hk hpos hle hch hchars⟩
      rw [heq, Nat.add_assoc]
    apply hstay
    . rw [wordLoop_narrow hne hk hpos hwc hnarrow hch]
      by_cases hblank : IsBlank ch
      . rw [if_pos hblank]
        exact (if_neg hdelim).trans (if_neg fun heq => hsame (ofNat_inj hd hblank heq).symm)
      . rw [if_neg hblank]
        exact if_pos hdelim
    . exact hend
    . exact fun _ _ _ hboth => hsame (Option.some.inj (hch.symm.trans hboth.2))

def TakesLetters (ops : WordOps) (len : Nat) (text : List UInt8) (result : Option WordInfo) : Prop :=
  (ops.LettersOk len text →
      ∃ n m d, result = some ⟨len + n, d, m⟩ ∧ Chars ops.lenFirstChar ops.Letter n text
        ∧ Chars ops.lenFirstChar (ops.At d.toNat) m (text.drop n)
        ∧ (len = 0 → (∃ k, ops.lenFirstChar text = some k ∧ 0 < k) → 0 < n + m))
    ∧ (¬ops.LettersOk len text → ∀ info, result = some info →
        len = 0 ∧ 0 < info.len ∧ ∃ ch, IsBlank ch ∧ ops.At ch text)

theorem letters_spec {rounds : Nat} (h : text.length < rounds) (len : Nat)
    : ops.TakesLetters len text (ops.wordLoop rounds text ⟨len, 0, 0⟩) := by
  induction rounds generalizing text len with
  | zero => omega
  | succ rounds ih =>
    rcases ops.first text with hstop | ⟨k, hne, hk, hover⟩ | ⟨k, wc, hne, hk, hpos, hle, hwc, hwide⟩
      | ⟨k, wc, ch, hne, hk, hpos, hle, hwc, hnarrow, hch⟩
    . have hzero : ∀ k, ops.lenFirstChar text = some k → k = 0 := fun k hk => stop_len hstop hk
      have hok : ops.LettersOk len text := by
        apply (forall_chars_of_not _ (Q := fun n => ops.LettersEnd (len + n))).mpr
        . intro k hk
          rw [hzero k hk]
          exact ⟨Nat.zero_le _, fun hpos => absurd hpos (Nat.lt_irrefl 0)⟩
        . intro k hk hpos
          rw [hzero k hk] at hpos
          exact absurd hpos (Nat.lt_irrefl 0)
      refine ⟨fun _ => ⟨0, 0, 0, wordLoop_stop hstop, .nil text, .nil _, ?_⟩, fun hbad => absurd hok hbad⟩
      . rintro - ⟨k, hk, hpos⟩
        rw [hzero k hk] at hpos
        exact hpos
    . constructor
      . intro hok
        have := (hok 0 (.nil text) k hk).1
        rw [drop_zero] at this
        omega
      . intro _ info hinfo
        rw [wordLoop_over hne hk hover] at hinfo
        cases hinfo
    . have hwidech := not_narrow hwc hwide
      have hok : ops.LettersOk len text := by
        apply (forall_chars_of_not _ (Q := fun n => ops.LettersEnd (len + n))).mpr
        . intro k' hk'
          rw [← Option.some.inj (hk.symm.trans hk')]
          exact ⟨hle, fun _ _ _ _ hnarrow => absurd hnarrow hwidech⟩
        . exact fun _ _ _ hboth => hwidech hboth.1
      refine ⟨fun _ => ?_, fun hbad => absurd hok hbad⟩
      rw [wordLoop, if_neg hne, hk, bind_some, if_neg (by omega), hwc, bind_some, if_pos hwide]
      rcases Nat.eq_zero_or_pos len with rfl | hlen
      . rw [if_neg (Nat.lt_irrefl 0)]
        refine ⟨k, 0, 0, by rw [Nat.zero_add], ?_, .nil _, fun _ _ => hpos⟩
        exact .char text k 0 hk hpos hle (fun ch hch => ops.wide_letter text wc ch hwc hwide hch) (.nil _)
      . rw [if_pos hlen]
        exact ⟨0, 0, 0, rfl, .nil text, .nil _, fun hzero => by omega⟩
    have hnarrowch : ops.Narrow text := ⟨wc, hwc, hnarrow⟩
    rw [wordLoop_narrow hne hk hpos hwc hnarrow hch]
    by_cases hblank : IsBlank ch
    . rw [if_pos hblank, if_pos rfl, ops.counted_eq text k ch hk hpos hch hblank]
      have hrest := @blanks_spec ops (text.drop k) rounds (by rw [length_drop]; omega) len ch hblank (0 + k)
      have hiff : ops.LettersOk len text ↔ ops.BlanksOk len ch (text.drop k) := by
        rw [← blanksOk_drop len hk hpos hle hnarrowch hch]
        apply (forall_chars_of_not _ (Q := fun n => ops.LettersEnd (len + n))).trans
        . constructor
          . exact fun hend => (hend k hk).2 hpos ch hblank hch hnarrowch
          intro hok k' hk'
          rw [← Option.some.inj (hk.symm.trans hk')]
          refine ⟨hle, fun _ d _ hd _ => ?_⟩
          rw [← Option.some.inj (hch.symm.trans hd)]
          exact hok
        . exact fun _ _ _ hboth => hboth.2 ch hch hblank
      constructor
      . intro hok
        obtain ⟨m, heq, hchars⟩ := hrest.1 (hiff.mp hok)
        refine ⟨0, k + m, ofNat ch, ?_, .nil text, ?_, fun _ _ => by omega⟩
        . rw [heq, Nat.zero_add]
          rfl
        . rw [(toNat_blank hblank).1]
          exact .char text k m hk hpos hle hch hchars
      . intro hbad info hinfo
        obtain ⟨hzero, hlen⟩ := hrest.2 (fun hok => hbad (hiff.mpr hok)) info hinfo
        exact ⟨hzero, hlen, ch, hblank, hch⟩
    rw [if_neg hblank, if_neg (not_not.mpr rfl)]
    have hletter : ops.Letter text := by
      intro ch' hch'
      rw [← Option.some.inj (hch.symm.trans hch')]
      exact hblank
    have hrest := @ih (text.drop k) (by rw [length_drop]; omega) (len + k)
    have hiff : ops.LettersOk len text ↔ ops.LettersOk (len + k) (text.drop k) := by
      apply (forall_chars_of_first hk hpos hle ⟨hnarrowch, hletter⟩ (Q := fun n => ops.LettersEnd (len + n))).trans
      rw [and_iff_right]
      . unfold LettersOk
        simp only [Nat.add_assoc]
      . intro k' hk'
        rw [← Option.some.inj (hk.symm.trans hk')]
        exact ⟨hle, fun _ d hd hat _ => absurd hd (hletter d hat)⟩
    constructor
    . intro hok
      obtain ⟨n, m, d, heq, hletters, hdelims, -⟩ := hrest.1 (hiff.mp hok)
      refine ⟨k + n, m, d, ?_, .char text k n hk hpos hle hletter hletters, ?_, fun _ _ => by omega⟩
      . rw [heq, Nat.add_assoc]
      . rw [← drop_drop]
        exact hdelims
    . intro hbad info hinfo
      have := (hrest.2 (fun hok => hbad (hiff.mpr hok)) info hinfo).1
      omega

theorem isWord_iff (ops : WordOps) (h : ∃ k, ops.lenFirstChar text = some k ∧ 0 < k)
    : (∃ info, ops.getNextWord text = some info ∧ IsWord ops.lenFirstChar ops.switched info text)
        ↔ ops.LettersOk 0 text := by
  have hspec := @letters_spec ops text (text.length + 1) (Nat.lt_succ_self _) 0
  constructor
  . rintro ⟨info, hinfo, hword⟩
    by_contra hbad
    obtain ⟨-, hlen, ch, hblank, hch⟩ := hspec.2 hbad info hinfo
    obtain ⟨k, m, -, -, -, hletter, -⟩ := hword.letters.first hlen
    exact hletter ch hch hblank
  intro hok
  obtain ⟨n, m, d, heq, hletters, hdelims, hpos⟩ := hspec.1 hok
  rw [Nat.zero_add] at heq
  have hn := hletters.le
  have hm := hdelims.le
  rw [length_drop] at hm
  exact ⟨_, heq, hpos rfl h, by unfold WordInfo.wordLen; dsimp only; omega, hletters, hdelims⟩

end WordOps

theorem high_of_blank (h : IsBlank c.toNat) : c.toNat &&& 0x80 = 0 ∧ c < 0x80 := by
  rw [UInt8.lt_iff_toNat_lt]
  rcases h with h | h | h | h <;> (rw [h]; decide)

theorem utf8Decode_read {n : Nat} {mchar : List UInt8} (h : n ≤ mchar.length)
    : ∃ wc', utf8Decode n wc mchar = some wc' := by
  induction n generalizing wc mchar with
  | zero => exact ⟨wc, rfl⟩
  | succ n ih =>
    cases mchar with
    | nil => cases h
    | cons t rest => exact ih (Nat.le_of_succ_le_succ h)

theorem utf8_converts {rest : List UInt8}
    (h : utf8LenFirstChar (c :: rest) (c :: rest).length = some k) (hpos : 0 < k)
    : ∃ wc, utf8ConvToUc32 (c :: rest) = some wc := by
  unfold utf8ConvToUc32
  rw [getElem?_cons_zero, bind_some]
  split
  next hhigh =>
    apply utf8Decode_read
    have hascii : ¬c < 0x80 := by
      rw [UInt8.lt_iff_toNat_lt]
      intro hlt
      exact hhigh (utf8_ascii ⟨c.toNat, hlt⟩).2
    unfold utf8LenFirstChar at h
    rw [getElem?_cons_zero, bind_some, if_neg hascii] at h
    dsimp only at h
    split at h
    next =>
      rw [← Option.some.inj h] at hpos
      exact absurd hpos (Nat.lt_irrefl 0)
    next hle =>
      rw [length_cons] at hle
      change _ ≤ rest.length
      omega
  next => exact ⟨c.toNat, rfl⟩

theorem utf16_converts {be : Bool} {text : List UInt8}
    (h : utf16LenFirstChar be text text.length = some k) (hpos : 0 < k)
    : (∃ wc, utf16ConvToUc32 be text = some wc) ↔ k ≤ text.length := by
  have hzero : ∀ {p : Prop}, some 0 = some k → p := fun heq => absurd (Option.some.inj heq) (Nat.ne_of_lt hpos)
  unfold utf16LenFirstChar at h
  split at h
  next => exact hzero h
  next htwo =>
    obtain ⟨b0, hb0, h⟩ := bind_eq_some_iff.mp h
    obtain ⟨b1, hb1, h⟩ := bind_eq_some_iff.mp h
    dsimp only at h
    unfold utf16ConvToUc32
    rw [hb0, hb1, bind_some, bind_some]
    split at h
    next hplain =>
      rw [if_pos hplain, ← Option.some.inj h]
      exact iff_of_true ⟨_, rfl⟩ (by omega)
    next hsurrogate =>
      rw [if_neg hsurrogate]
      have hfour : k = 4 := by
        split at h
        next =>
          split at h
          next => exact hzero h
          next =>
            obtain ⟨b2, _, h⟩ := bind_eq_some_iff.mp h
            obtain ⟨b3, _, h⟩ := bind_eq_some_iff.mp h
            split at h
            next => exact hzero h
            next => exact (Option.some.inj h).symm
        next => exact (Option.some.inj h).symm
      rw [hfour]
      constructor
      . rintro ⟨wc, hwc⟩
        obtain ⟨b2, _, hwc⟩ := bind_eq_some_iff.mp hwc
        obtain ⟨b3, hb3, _⟩ := bind_eq_some_iff.mp hwc
        exact (List.getElem?_eq_some_iff.mp hb3).1
      intro hle
      rw [getElem?_eq_getElem (show 2 < text.length by omega),
        getElem?_eq_getElem (show 3 < text.length by omega)]
      exact ⟨_, rfl⟩

def utf8Ops : WordOps where
  lenFirstChar text := utf8LenFirstChar text text.length
  convToUc32 := utf8ConvToUc32
  switched text := text[0]?.map UInt8.toNat
  counted _ := 1
  len_nil k h := by cases h
  len_read text hne := by
    obtain ⟨k, hk, -⟩ := utf8LenFirstChar_length hne
    exact ⟨k, hk⟩
  conv_read text k h hpos hle := by
    cases text with
    | nil => cases h
    | cons c rest =>
      obtain ⟨wc, hwc⟩ := utf8_converts h hpos
      exact ⟨wc, c.toNat, hwc, rfl⟩
  conv_behind text k h hlt := by
    obtain ⟨k', hk', hle⟩ := @utf8LenFirstChar_length text (by rintro rfl; cases h)
    rw [← Option.some.inj (h.symm.trans hk')] at hle
    omega
  wide_letter text wc ch hwc hwide hch := by
    obtain ⟨c, hc, rfl⟩ := map_eq_some_iff.mp hch
    intro hblank
    unfold utf8ConvToUc32 at hwc
    rw [hc, bind_some, if_neg (not_not.mpr (high_of_blank hblank).1)] at hwc
    rw [← Option.some.inj hwc] at hwide
    rcases hblank with h | h | h | h <;> omega
  counted_eq text k ch h hpos hch hblank := by
    obtain ⟨c, hc, rfl⟩ := map_eq_some_iff.mp hch
    unfold utf8LenFirstChar at h
    rw [hc, bind_some, if_pos (high_of_blank hblank).2] at h
    exact Option.some.inj h

def utf16Ops (be : Bool) : WordOps where
  lenFirstChar text := utf16LenFirstChar be text text.length
  convToUc32 := utf16ConvToUc32 be
  switched := utf16ConvToUc32 be
  counted chLen := chLen
  len_nil k h := (Option.some.inj h).symm
  len_read text _ := utf16LenFirstChar_total be text
  conv_read text k h hpos hle := by
    obtain ⟨wc, hwc⟩ := (utf16_converts h hpos).mpr hle
    exact ⟨wc, wc, hwc, hwc⟩
  conv_behind text k h hlt := by
    rw [eq_none_iff_forall_ne_some]
    intro wc hwc
    have := (utf16_converts h (by omega)).mp ⟨wc, hwc⟩
    omega
  wide_letter text wc ch hwc hwide hch := by
    rw [← Option.some.inj (hwc.symm.trans hch)]
    intro hblank
    rcases hblank with h | h | h | h <;> omega
  counted_eq _ _ _ _ _ _ _ := rfl

section SingleByte

def memoryOf (text : List UInt8) : Memory :=
  fun i => text.getD i 0

def sbWord (text : List UInt8) (info : WordInfo) : WordInfo :=
  sbWordLoop text.length (memoryOf text) info

def oneByte (_ : List UInt8) : Option Nat :=
  some 1

def headByte (text : List UInt8) : Option Nat :=
  text.head?.map UInt8.toNat

def IsLetter (text : List UInt8) : Prop :=
  ∀ ch, headByte text = some ch → ¬IsBlank ch

def IsByte (d : UInt8) (text : List UInt8) : Prop :=
  headByte text = some d.toNat

def SbSkips (d : UInt8) : List UInt8 → Prop
  | [] => True
  | a :: text => ¬a > 127 ∧ if IsDelimiter a then a ≠ d else SbSkips d text

def SbBlanks (d : UInt8) : List UInt8 → Prop
  | [] => True
  | a :: text => if a = d then SbBlanks d text else SbSkips d (a :: text)

def SbLetters : List UInt8 → Prop
  | [] => True
  | a :: text => a > 127 ∨ if IsDelimiter a then SbBlanks a text else SbLetters text

/--
A byte above 127 in front is followed by a space. Behind letters any such byte is fine, but the text may also go on
with blanks of one kind, and behind them with letters up to the end or to a blank of another kind.
-/
def SbOk : List UInt8 → Prop
  | [] => True
  | a :: text => if a > 127 then text.head? = some 0x20 else SbLetters (a :: text)

variable {a d : UInt8} {text : List UInt8} {len nr : Nat}

theorem isBlank_toNat : IsBlank a.toNat ↔ IsDelimiter a := by
  unfold IsBlank IsDelimiter
  simp only [← toNat_inj]
  rfl

theorem headByte_cons : headByte (a :: text) = some a.toNat :=
  rfl

theorem isByte_cons : IsByte d (a :: text) ↔ a = d := by
  unfold IsByte
  rw [headByte_cons, Option.some.injEq, toNat_inj]

theorem isLetter_cons : IsLetter (a :: text) ↔ ¬IsDelimiter a := by
  unfold IsLetter
  rw [headByte_cons, ← isBlank_toNat]
  constructor
  . exact fun h => h _ rfl
  . intro h ch hch
    rw [← Option.some.inj hch]
    exact h

theorem sbWord_cons (info : WordInfo) : sbWord (a :: text) info = if a > 127 then
        if info.len > 0 then
          { info with delimiter := a, nrDelimiters := info.nrDelimiters + 1 }
        else
          { info with len := info.len + 1, delimiter := 0x20, nrDelimiters := info.nrDelimiters + 1 }
      else if IsDelimiter a then
        if info.delimiter = 0 then
          sbWord text { info with delimiter := a, nrDelimiters := info.nrDelimiters + 1 }
        else if info.delimiter = a then
          sbWord text { info with nrDelimiters := info.nrDelimiters + 1 }
        else
          info
      else if info.delimiter ≠ 0 then
        sbWord text info
      else
        sbWord text { info with len := info.len + 1 } := by
  have hrest : (memoryOf (a :: text)).advance 1 = memoryOf text := by
    funext i
    unfold Memory.advance memoryOf
    rw [Nat.add_comm]
    rfl
  unfold sbWord
  rw [length_cons, sbWordLoop, hrest]
  rfl

theorem sbWord_ge (text : List UInt8) (info : WordInfo) : info.wordLen ≤ (sbWord text info).wordLen :=
  sbWordLoop_ge _ _ _

theorem sbWord_len (text : List UInt8) (info : WordInfo) : info.len ≤ (sbWord text info).len := by
  induction text generalizing info with
  | nil => exact Nat.le_refl _
  | cons a text ih =>
    rw [sbWord_cons]
    repeat' split
    all_goals
      first
      | exact Nat.le_refl _
      | exact Nat.le_succ _
      | exact Nat.le_trans (by simp) (ih _)

theorem sbWord_count {d' : UInt8} {m : Nat} (h : sbWord text ⟨len, d, nr⟩ = ⟨len, d', m⟩) : nr ≤ m := by
  have := sbWord_ge text ⟨len, d, nr⟩
  rw [h] at this
  exact Nat.le_of_add_le_add_left this

theorem ne_zero_of_delimiter (h : IsDelimiter d) : d ≠ 0 ∧ ¬d > 127 := by
  rcases h with rfl | rfl | rfl | rfl <;> decide

theorem chars_cons {p : List UInt8 → Prop} {n : Nat} (hp : p (a :: text)) (h : Chars oneByte p n text)
    : Chars oneByte p (1 + n) (a :: text) :=
  .char (a :: text) 1 n rfl Nat.one_pos (Nat.succ_le_succ (Nat.zero_le _)) hp h

theorem sbWord_skips (hd : IsDelimiter d) : sbWord text ⟨len, d, nr⟩ = ⟨len, d, nr⟩ ↔ SbSkips d text := by
  obtain ⟨hd0, hlow⟩ := ne_zero_of_delimiter hd
  induction text with
  | nil => exact iff_of_true rfl trivial
  | cons a text ih =>
    rw [sbWord_cons, SbSkips]
    by_cases hhigh : a > 127
    . rw [if_pos hhigh]
      apply iff_of_false
      . split <;> simp
      . exact fun h => h.1 hhigh
    rw [if_neg hhigh, and_iff_right hhigh]
    by_cases hdel : IsDelimiter a
    . rw [if_pos hdel, if_pos hdel]
      dsimp only
      rw [if_neg hd0]
      by_cases hsame : d = a
      . rw [if_pos hsame]
        apply iff_of_false
        . intro heq
          have := sbWord_count heq
          omega
        . exact fun h => h hsame.symm
      . rw [if_neg hsame]
        exact iff_of_true rfl (Ne.symm hsame)
    . rw [if_neg hdel, if_neg hdel]
      rw [if_pos hd0]
      exact ih

theorem sbWord_blanks (hd : IsDelimiter d)
    : (∃ m, sbWord text ⟨len, d, nr⟩ = ⟨len, d, nr + m⟩ ∧ Chars oneByte (IsByte d) m text) ↔ SbBlanks d text := by
  obtain ⟨hd0, hlow⟩ := ne_zero_of_delimiter hd
  induction text generalizing nr with
  | nil => exact iff_of_true ⟨0, rfl, .nil []⟩ trivial
  | cons a text ih =>
    rw [SbBlanks]
    by_cases hsame : a = d
    . subst hsame
      rw [if_pos rfl, ← @ih (nr + 1), sbWord_cons, if_neg hlow, if_pos hd]
      dsimp only
      rw [if_neg hd0, if_pos rfl]
      constructor
      . rintro ⟨m, heq, hchars⟩
        cases hchars with
        | nil =>
          have := sbWord_count heq
          omega
        | char _ k m hk _ _ _ rest =>
          obtain rfl := Option.some.inj hk
          exact ⟨m, by rw [heq, Nat.add_assoc], rest⟩
      . rintro ⟨m, heq, hchars⟩
        exact ⟨1 + m, by rw [heq, Nat.add_assoc], chars_cons (isByte_cons.mpr rfl) hchars⟩
    rw [if_neg hsame, ← @sbWord_skips d (a :: text) len nr hd]
    constructor
    . rintro ⟨m, heq, hchars⟩
      cases hchars with
      | nil => exact heq
      | char _ k m _ _ _ hbyte _ => exact absurd (isByte_cons.mp hbyte) hsame
    . exact fun heq => ⟨0, heq, .nil _⟩

theorem sbWord_letters (hlen : 0 < len ∨ ∀ a ∈ text.head?, ¬a > 127)
    : (∃ n m d, sbWord text ⟨len, 0, 0⟩ = ⟨len + n, d, m⟩ ∧ Chars oneByte IsLetter n text
          ∧ Chars oneByte (IsByte d) m (text.drop n)) ↔ SbLetters text := by
  induction text generalizing len with
  | nil => exact iff_of_true ⟨0, 0, 0, rfl, .nil _, .nil _⟩ trivial
  | cons a text ih =>
    rw [SbLetters, sbWord_cons]
    by_cases hhigh : a > 127
    . have hpos : 0 < len := hlen.resolve_right fun h => h a rfl hhigh
      rw [if_pos hhigh]
      rw [if_pos hpos]
      exact iff_of_true ⟨0, 1, a, rfl, .nil _, chars_cons (isByte_cons.mpr rfl) (.nil _)⟩ (.inl hhigh)
    rw [if_neg hhigh, or_iff_right hhigh]
    by_cases hdel : IsDelimiter a
    . rw [if_pos hdel, if_pos hdel, if_pos rfl, ← @sbWord_blanks a text len 1 hdel]
      constructor
      . rintro ⟨n, m, d, heq, hletters, hdelims⟩
        cases hletters with
        | char _ _ _ _ _ _ hletter _ => exact absurd hdel (isLetter_cons.mp hletter)
        | nil =>
          cases hdelims with
          | nil =>
            have := sbWord_count heq
            omega
          | char _ k m hk _ _ hbyte rest =>
            obtain rfl := Option.some.inj hk
            obtain rfl := isByte_cons.mp hbyte
            exact ⟨m, heq, rest⟩
      . rintro ⟨m, heq, hchars⟩
        exact ⟨0, 1 + m, a, heq, .nil _, chars_cons (isByte_cons.mpr rfl) hchars⟩
    rw [if_neg hdel, if_neg hdel, if_neg (not_not.mpr rfl), ← ih (.inl (Nat.succ_pos len))]
    constructor
    . rintro ⟨n, m, d, heq, hletters, hdelims⟩
      cases hletters with
      | nil =>
        have := sbWord_len text ⟨len + 1, 0, 0⟩
        rw [heq] at this
        dsimp only at this
        omega
      | char _ k n hk _ _ _ rest =>
        obtain rfl := Option.some.inj hk
        rw [← drop_drop] at hdelims
        exact ⟨n, m, d, by rw [heq, ← Nat.add_assoc], rest, hdelims⟩
    . rintro ⟨n, m, d, heq, hletters, hdelims⟩
      refine ⟨1 + n, m, d, by rw [heq, ← Nat.add_assoc], chars_cons (isLetter_cons.mpr hdel) hletters, ?_⟩
      rw [← drop_drop]
      exact hdelims

theorem sb_isWord_iff (hne : text ≠ [])
    : IsWord oneByte headByte (sbGetNextWord (memoryOf text) text.length) text ↔ SbOk text := by
  have hget : sbGetNextWord (memoryOf text) text.length = sbWord text ⟨0, 0, 0⟩ := rfl
  rw [hget]
  cases text with
  | nil => exact absurd rfl hne
  | cons a text =>
    rw [SbOk]
    by_cases hhigh : a > 127
    . rw [if_pos hhigh, sbWord_cons, if_pos hhigh, if_neg (Nat.lt_irrefl 0)]
      have hletter : ¬IsDelimiter a := fun h => (ne_zero_of_delimiter h).2 hhigh
      constructor
      . intro h
        obtain ⟨k, m, -, -, -, hbyte, -⟩ := h.delimiters.first Nat.one_pos
        obtain ⟨c, hc, heq⟩ := map_eq_some_iff.mp hbyte
        rw [toNat_inj.mp heq] at hc
        exact hc
      intro hspace
      cases text with
      | nil => cases hspace
      | cons b text =>
        obtain rfl := Option.some.inj hspace
        refine ⟨Nat.succ_pos _, Nat.succ_le_succ (Nat.succ_le_succ (Nat.zero_le _)), ?_, ?_⟩
        . exact chars_cons (isLetter_cons.mpr hletter) (.nil _)
        . exact chars_cons (isByte_cons.mpr rfl) (.nil _)
    rw [if_neg hhigh, ← @sbWord_letters (a :: text) 0 (.inr fun b hb => by rwa [← Option.some.inj hb])]
    constructor
    . intro h
      exact ⟨_, _, _, by rw [Nat.zero_add], h.letters, h.delimiters⟩
    rintro ⟨n, m, d, heq, hletters, hdelims⟩
    rw [Nat.zero_add] at heq
    rw [heq]
    have hn := hletters.le
    have hm := hdelims.le
    rw [length_drop] at hm
    have hpos := sbGetNextWord_pos (memoryOf (a :: text)) (Nat.succ_pos text.length)
    change 0 < (sbWord (a :: text) ⟨0, 0, 0⟩).wordLen at hpos
    rw [heq] at hpos
    exact ⟨hpos, by unfold WordInfo.wordLen; dsimp only; omega, hletters, hdelims⟩

end SingleByte

inductive WordCharset where
  | sb
  | utf8
  | utf16 (be : Bool)

namespace WordCharset

def getNextWord : WordCharset → List UInt8 → Option WordInfo
  | .sb => fun text => some (sbGetNextWord (memoryOf text) text.length)
  | .utf8 => utf8Ops.getNextWord
  | .utf16 be => (utf16Ops be).getNextWord

def lenFirst : WordCharset → List UInt8 → Option Nat
  | .sb => fun text => some (sbLenFirstChar (memoryOf text) text.length)
  | .utf8 => utf8Ops.lenFirstChar
  | .utf16 be => (utf16Ops be).lenFirstChar

def Accepts (cs : WordCharset) (text : List UInt8) : Prop :=
  ∃ k, cs.lenFirst text = some k ∧ 0 < k

def Describes (cs : WordCharset) (info : WordInfo) (text : List UInt8) : Prop :=
  match cs with
  | .sb => IsWord oneByte headByte info text
  | .utf8 => IsWord utf8Ops.lenFirstChar utf8Ops.switched info text
  | .utf16 be => IsWord (utf16Ops be).lenFirstChar (utf16Ops be).switched info text

def FindsWord (cs : WordCharset) (text : List UInt8) : Prop :=
  ∃ info, cs.getNextWord text = some info ∧ cs.Describes info text

def WordOk : WordCharset → List UInt8 → Prop
  | .sb => SbOk
  | .utf8 => utf8Ops.LettersOk 0
  | .utf16 be => (utf16Ops be).LettersOk 0

inductive Pieces (cs : WordCharset) : List UInt8 → List (List UInt8) → Prop where
  | nil : Pieces cs [] []
  | word (text : List UInt8) (info : WordInfo) (pieces : List (List UInt8)) : cs.getNextWord text = some info →
      cs.Describes info text → Pieces cs (text.drop info.wordLen) pieces →
      Pieces cs text (text.take info.wordLen :: pieces)

inductive AllOk (cs : WordCharset) : List UInt8 → Prop where
  | nil : AllOk cs []
  | word (text : List UInt8) : cs.Accepts text → cs.WordOk text →
      (∀ info, cs.getNextWord text = some info → AllOk cs (text.drop info.wordLen)) → AllOk cs text

variable {cs : WordCharset} {text : List UInt8}

theorem findsWord_iff (h : cs.Accepts text) : cs.FindsWord text ↔ cs.WordOk text := by
  cases cs with
  | sb =>
    have hne : text ≠ [] := by
      rintro rfl
      obtain ⟨k, hk, hpos⟩ := h
      rw [← Option.some.inj hk] at hpos
      exact absurd hpos (Nat.lt_irrefl 0)
    rw [← show SbOk text ↔ WordCharset.sb.WordOk text from Iff.rfl, ← sb_isWord_iff hne]
    constructor
    . rintro ⟨info, hinfo, hword⟩
      rw [← Option.some.inj hinfo] at hword
      exact hword
    . exact fun hword => ⟨_, rfl, hword⟩
  | utf8 => exact utf8Ops.isWord_iff h
  | utf16 be => exact (utf16Ops be).isWord_iff h

theorem exists_pieces (h : cs.AllOk text) : ∃ pieces, cs.Pieces text pieces ∧ pieces.flatten = text := by
  induction h with
  | nil => exact ⟨[], .nil, rfl⟩
  | word text haccepts hok _ ih =>
    obtain ⟨info, hinfo, hword⟩ := (findsWord_iff haccepts).mpr hok
    obtain ⟨pieces, hpieces, hflat⟩ := ih info hinfo
    refine ⟨_, .word text info pieces hinfo hword hpieces, ?_⟩
    rw [flatten_cons, hflat, take_append_drop]

/--
The word in front of a text is what is reported, under the condition only, and a text comes apart into its words.
-/
theorem nextWord_tiles (h : cs.Accepts text) : (cs.FindsWord text ↔ cs.WordOk text)
        ∧ (cs.AllOk text → ∃ pieces, cs.Pieces text pieces ∧ pieces.flatten = text) :=
  ⟨findsWord_iff h, exists_pieces⟩

theorem nextWord_tiles_letter : WordCharset.sb.FindsWord [0x61] :=
  (nextWord_tiles ⟨1, by decide, by decide⟩).1.mpr (by
    change SbOk [0x61]
    rw [SbOk, if_neg (by decide), SbLetters, if_neg (by decide), SbLetters]
    exact .inr trivial)

theorem not_nextWord_tiles : ¬∀ (cs : WordCharset) (text : List UInt8), cs.Accepts text → cs.FindsWord text := by
  intro h
  obtain ⟨info, hinfo, hword⟩ := h .sb [0xE9] ⟨1, by decide, by decide⟩
  have hle := IsWord.le hword
  rw [← Option.some.inj hinfo] at hle
  revert hle
  decide

end WordCharset

end MiniGui
