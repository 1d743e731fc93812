import MiniGui.Font.MbsResume

namespace MiniGui.ConvFont

open List

def allBytes (font : ConvFont) : Nat → (Nat → UInt32) → List UInt8
  | 0, _ => []
  | left + 1, wcs =>
    if wcs 0 = 0 ∨ font.multiBytes (wcs 0) = [] then
      []
    else
      font.multiBytes (wcs 0) ++ allBytes font left (fun i => wcs (i + 1))

variable {bytes : List UInt8} {pos unlimited : Nat}

section Loop

variable {font : ConvFont}

theorem multiBytes_le (font : ConvFont) (uc32 : UInt32) : (font.multiBytes uc32).length ≤ 16 := by
  have hmbc : (if font.mbcDevfont.isSome then font.mbcConv.convFromUc32 uc32 else []).length ≤ 16 := by
    split
    . exact font.mbcConv.convFromUc32_le uc32
    . exact Nat.zero_le _
  unfold multiBytes
  dsimp only
  generalize (if font.mbcDevfont.isSome then font.mbcConv.convFromUc32 uc32 else []) = mbcBytes at hmbc
  split
  . exact font.sbcConv.convFromUc32_le uc32
  . exact hmbc

theorem wcsLoop_spec (font : ConvFont) {n : Nat} (left : Nat) (wcs : Nat → UInt32) {count : Nat} (hcount : count ≤ n)
    : ∃ bytes pos exit, font.wcsLoop n left wcs count = (bytes, pos, exit) ∧ font.BytesTo wcs pos bytes
      ∧ count + bytes.length ≤ n
      ∧ match exit with
        | .exhausted => pos = left
        | .nul => pos < left ∧ wcs pos = 0
        | .unconvertible => pos < left ∧ wcs pos ≠ 0 ∧ font.multiBytes (wcs pos) = []
        | .limit => pos < left ∧ wcs pos ≠ 0 ∧ font.multiBytes (wcs pos) ≠ []
          ∧ n < count + bytes.length + (font.multiBytes (wcs pos)).length := by
  induction left generalizing wcs count with
  | zero => exact ⟨[], 0, .exhausted, rfl, .nil wcs, hcount, rfl⟩
  | succ left ih =>
    unfold wcsLoop
    by_cases hnul : wcs 0 = 0
    . rw [if_pos hnul]
      exact ⟨[], 0, .nul, rfl, .nil wcs, hcount, Nat.succ_pos left, hnul⟩
    rw [if_neg hnul]
    by_cases hnone : font.multiBytes (wcs 0) = []
    . rw [if_pos hnone]
      exact ⟨[], 0, .unconvertible, rfl, .nil wcs, hcount, Nat.succ_pos left, hnul, hnone⟩
    rw [if_neg hnone]
    by_cases hlimit : count + (font.multiBytes (wcs 0)).length > n
    . rw [if_pos hlimit]
      exact ⟨[], 0, .limit, rfl, .nil wcs, hcount, Nat.succ_pos left, hnul, hnone, hlimit⟩
    rw [if_neg hlimit]
    obtain ⟨bytes, pos, exit, heq, hto, hle, hexit⟩ :=
      ih (fun i => wcs (i + 1)) (Nat.le_of_not_gt hlimit)
    refine ⟨font.multiBytes (wcs 0) ++ bytes, pos + 1, exit, ?_, .cons hnul hnone hto, ?_, ?_⟩
    . rw [heq]
    . rw [length_append]
      omega
    rw [length_append, ← Nat.add_assoc]
    cases exit with
    | exhausted => exact congrArg (· + 1) hexit
    | nul | unconvertible | limit => exact ⟨Nat.succ_lt_succ hexit.1, hexit.2⟩

variable {bytes' : List UInt8} {pos' : Nat}

section

variable {wcs : Nat → UInt32} (h : font.BytesTo wcs pos bytes)
include h

theorem BytesTo.pos_le_of_stop (h' : font.BytesTo wcs pos' bytes')
    (hstop : wcs pos' = 0 ∨ font.multiBytes (wcs pos') = []) : pos ≤ pos' := by
  induction h generalizing pos' bytes' with
  | nil => exact Nat.zero_le _
  | cons hne hbytes rest ih =>
    cases h' with
    | nil =>
      rcases hstop with h | h
      . exact absurd h hne
      . exact absurd h hbytes
    | cons hne' hbytes' rest' => exact Nat.succ_le_succ (ih rest' hstop)

theorem BytesTo.unique (h' : font.BytesTo wcs pos bytes') : bytes = bytes' := by
  induction h generalizing bytes' with
  | nil =>
    cases h'
    rfl
  | cons hne hbytes rest ih =>
    cases h' with
    | cons hne' hbytes' rest' => rw [ih rest']

theorem BytesTo.append
    (h' : font.BytesTo (fun i => wcs (pos + i)) pos' bytes') : font.BytesTo wcs (pos + pos') (bytes ++ bytes') := by
  induction h with
  | nil wcs =>
    have hzero : (fun i => wcs (0 + i)) = wcs := funext fun i => by rw [Nat.zero_add]
    rw [hzero] at h'
    rw [Nat.zero_add]
    exact h'
  | @cons wcs pos bytes hne hbytes rest ih =>
    have hshift : (fun i => wcs (pos + 1 + i)) = fun i => wcs (pos + i + 1) :=
      funext fun i => by rw [Nat.add_right_comm]
    rw [hshift] at h'
    rw [append_assoc, Nat.add_right_comm]
    exact .cons hne hbytes (ih h')

theorem BytesTo.split (h' : font.BytesTo wcs pos' bytes') (hle : pos ≤ pos')
    : ∃ rest, font.BytesTo (fun i => wcs (pos + i)) (pos' - pos) rest ∧ bytes' = bytes ++ rest := by
  induction h generalizing pos' bytes' with
  | nil wcs =>
    have hzero : (fun i => wcs (0 + i)) = wcs := funext fun i => by rw [Nat.zero_add]
    rw [hzero]
    exact ⟨bytes', h', rfl⟩
  | @cons wcs pos bytes hne hbytes rest ih =>
    cases h' with
    | nil => omega
    | cons hne' hbytes' rest' =>
      obtain ⟨more, hmore, heq⟩ := ih rest' (Nat.le_of_succ_le_succ hle)
      have hshift : (fun i => wcs (pos + 1 + i)) = fun i => wcs (pos + i + 1) :=
        funext fun i => by rw [Nat.add_right_comm]
      refine ⟨more, ?_, ?_⟩
      . rw [hshift, Nat.add_sub_add_right]
        exact hmore
      . rw [heq, append_assoc]

theorem allBytes_append {left : Nat}
    (hle : pos ≤ left) : font.allBytes left wcs = bytes ++ font.allBytes (left - pos) (fun i => wcs (pos + i)) := by
  induction h generalizing left with
  | nil wcs =>
    have hzero : (fun i => wcs (0 + i)) = wcs := funext fun i => by rw [Nat.zero_add]
    rw [hzero]
    rfl
  | @cons wcs pos bytes hne hbytes rest ih =>
    cases left with
    | zero => omega
    | succ left =>
      have hshift : (fun i => wcs (pos + 1 + i)) = fun i => wcs (pos + i + 1) :=
        funext fun i => by rw [Nat.add_right_comm]
      rw [allBytes, if_neg (not_or.mpr ⟨hne, hbytes⟩), ih (Nat.le_of_succ_le_succ hle), hshift, Nat.add_sub_add_right,
        append_assoc]

end

theorem allBytes_stop {wcs : Nat → UInt32} (left : Nat) (hstop : wcs 0 = 0 ∨ font.multiBytes (wcs 0) = [])
    : font.allBytes left wcs = [] := by
  cases left with
  | zero => rfl
  | succ left => exact if_pos hstop

theorem wcsLoop_unlimited (left : Nat) (wcs : Nat → UInt32) (count : Nat)
    (hunlimited : count + 16 * left ≤ unlimited)
    : (font.wcsLoop unlimited left wcs count).1 = font.allBytes left wcs := by
  induction left generalizing wcs count with
  | zero => rfl
  | succ left ih =>
    unfold wcsLoop allBytes
    by_cases hnul : wcs 0 = 0
    . rw [if_pos hnul, if_pos (Or.inl hnul)]
    by_cases hnone : font.multiBytes (wcs 0) = []
    . rw [if_neg hnul, if_pos (Or.inr hnone)]
      rw [if_pos hnone]
    have hle := multiBytes_le font (wcs 0)
    rw [if_neg hnul, if_neg (not_or.mpr ⟨hnul, hnone⟩)]
    dsimp only
    rw [if_neg hnone, if_neg (by omega), ih (fun i => wcs (i + 1)) _ (by omega)]

end Loop

section Calls

variable {font : ConvFont} {wcs : Nat → UInt32} {wcsLen n : Nat}

theorem wcs2mbsEx_spec (font : ConvFont) (wcs : Nat → UInt32) (wcsLen n : Nat)
    : ∃ bytes pos, font.BytesTo wcs pos bytes ∧ bytes.length ≤ n
      ∧ (font.wcs2mbsEx wcs wcsLen n).bytes = bytes ∧ (font.wcs2mbsEx wcs wcsLen n).lastRead = pos
      ∧ (font.wcs2mbsEx wcs wcsLen n).written ≤ n
      ∧ (pos = wcsLen ∧ (font.wcs2mbsEx wcs wcsLen n).convedWcsLen ≥ wcsLen
        ∨ pos < wcsLen ∧ wcs pos = 0 ∧ (font.wcs2mbsEx wcs wcsLen n).convedWcsLen = pos + 1
        ∨ pos < wcsLen ∧ wcs pos ≠ 0 ∧ (font.wcs2mbsEx wcs wcsLen n).convedWcsLen = pos
          ∧ (font.multiBytes (wcs pos) = []
            ∨ n < bytes.length + (font.multiBytes (wcs pos)).length)) := by
  obtain ⟨bytes, pos, exit, heq, hto, hle, hexit⟩ := wcsLoop_spec font wcsLen wcs (Nat.zero_le n)
  rw [Nat.zero_add] at hle
  refine ⟨bytes, pos, hto, hle, ?_⟩
  unfold wcs2mbsEx
  rw [heq]
  by_cases hfailed : exit = .unconvertible
  . subst hfailed
    rw [if_pos rfl]
    exact ⟨rfl, rfl, hle, .inr (.inr ⟨hexit.1, hexit.2.1, rfl, .inl hexit.2.2⟩)⟩
  rw [if_neg hfailed]
  by_cases hnul : wcs pos = 0
  . rw [if_pos hnul]
    refine ⟨rfl, rfl, ?_, ?_⟩
    . unfold MultiText.written
      dsimp only
      by_cases hless : bytes.length < n
      . rw [if_pos (decide_eq_true hless)]
        omega
      . rw [if_neg (by simpa using hless)]
        exact hle
    cases exit with
    | exhausted => exact .inl ⟨hexit, Nat.le_succ_of_le (Nat.le_of_eq hexit.symm)⟩
    | nul => exact .inr (.inl ⟨hexit.1, hnul, rfl⟩)
    | unconvertible => exact absurd rfl hfailed
    | limit => exact absurd hnul hexit.2.1
  rw [if_neg hnul]
  refine ⟨rfl, rfl, hle, ?_⟩
  cases exit with
  | exhausted => exact .inl ⟨hexit, Nat.le_of_eq hexit.symm⟩
  | nul => exact absurd hexit.2 hnul
  | unconvertible => exact absurd rfl hfailed
  | limit =>
    refine .inr (.inr ⟨hexit.1, hnul, rfl, .inr ?_⟩)
    omega

theorem wcs2mbsEx_unlimited (h : unlimited ≥ 16 * wcsLen)
    : (font.wcs2mbsEx wcs wcsLen unlimited).bytes = font.allBytes wcsLen wcs := by
  have hloop : (font.wcsLoop unlimited wcsLen wcs 0).1 = font.allBytes wcsLen wcs :=
    wcsLoop_unlimited wcsLen wcs 0 (by omega)
  rw [← hloop]
  unfold wcs2mbsEx
  dsimp only
  split
  . rfl
  . split
    . rfl
    . rfl

theorem ZeroEnds.advance (h : font.ZeroEnds wcs wcsLen) (hto : font.BytesTo wcs pos bytes)
    : font.ZeroEnds (fun i => wcs (pos + i)) (wcsLen - pos) := by
  intro pos' bytes' hto' hzero i hle hlt hbefore
  refine h (pos + pos') (bytes ++ bytes') (hto.append hto') hzero (pos + i) (by omega) (by omega) fun j hj hlt => ?_
  have heq : pos + (j - pos) = j := by omega
  have hj := hbefore (j - pos) (by omega) (by omega)
  dsimp only at hj
  rwa [heq] at hj

theorem ZeroEnds.behind (h : font.ZeroEnds wcs wcsLen) (hto : font.BytesTo wcs pos bytes)
    (hzero : wcs pos = 0) (hlt : pos + 1 < wcsLen)
    : (wcs (pos + 1) = 0 ∨ font.multiBytes (wcs (pos + 1)) = [])
      ∧ font.ZeroEnds (fun i => wcs (pos + 1 + i)) (wcsLen - (pos + 1)) := by
  have hstop : wcs (pos + 1) = 0 ∨ font.multiBytes (wcs (pos + 1)) = [] := by
    refine h pos bytes hto hzero (pos + 1) (Nat.le_succ pos) hlt fun j hle hj => ?_
    obtain rfl : j = pos := by omega
    exact hzero
  refine ⟨hstop, ?_⟩
  intro pos' bytes' hto' hzero' i hle hi hbefore
  obtain rfl : pos' = 0 := Nat.le_zero.mp (hto'.pos_le_of_stop (.nil _) hstop)
  refine h pos bytes hto hzero (pos + 1 + i) (by omega) (by omega) fun j hj hji => ?_
  by_cases heq : j = pos
  . rw [heq]
    exact hzero
  have hat : pos + 1 + (j - (pos + 1)) = j := by omega
  have hnul := hbefore (j - (pos + 1)) (Nat.zero_le _) (by omega)
  dsimp only at hnul
  rwa [hat] at hnul

theorem wcsCalls_eq (limits : List Nat) (hunlimited : unlimited ≥ 16 * wcsLen)
    (h : font.ZeroEnds wcs wcsLen) : font.wcsCalls unlimited limits wcs wcsLen = font.allBytes wcsLen wcs := by
  induction limits generalizing wcs wcsLen with
  | nil => exact wcs2mbsEx_unlimited hunlimited
  | cons n limits ih =>
    obtain ⟨bytes, pos, hto, -, hbytes, -, -, hend⟩ := wcs2mbsEx_spec font wcs wcsLen n
    unfold wcsCalls
    dsimp only
    rw [hbytes]
    rcases hend with ⟨rfl, hconved⟩ | ⟨hpos, hzero, hconved⟩ | ⟨hpos, -, hconved, -⟩
    . rw [if_neg (by omega), allBytes_append hto (Nat.le_refl _), Nat.sub_self]
      exact (append_nil bytes).symm
    . have hall : font.allBytes wcsLen wcs = bytes := by
        rw [allBytes_append hto (Nat.le_of_lt hpos), allBytes_stop _ (.inl hzero), append_nil]
      rw [hconved, hall]
      split
      case isTrue hmore =>
        obtain ⟨hstop, hends⟩ := h.behind hto hzero hmore
        rw [ih (by omega) hends, allBytes_stop _ hstop, append_nil]
      case isFalse => rfl
    . rw [hconved, if_pos hpos, ih (by omega) (h.advance hto), allBytes_append hto (Nat.le_of_lt hpos)]

theorem wcsResumes_of_ok (hstops : font.WcsStops wcs wcsLen n) (hends : font.ZeroEnds wcs wcsLen)
    : font.WcsResumes wcs wcsLen n := by
  obtain ⟨bytes, pos, hto, hle, hbytes, hlast, hwritten, hend⟩ := wcs2mbsEx_spec font wcs wcsLen n
  have hpos : pos < wcsLen ∧ (font.wcs2mbsEx wcs wcsLen n).convedWcsLen ≤ pos + 1 := by
    rcases hend with ⟨rfl, -⟩ | ⟨hpos, -, hconved⟩ | ⟨hpos, -, hconved, -⟩
    . -- the loop has not come to the end: it does not go over what stops it
      exfalso
      obtain ⟨stop, stopBytes, hstop, hlt, hnul | hnone | hover⟩ := hstops
      . exact absurd (hto.pos_le_of_stop hstop (.inl hnul)) (by omega)
      . exact absurd (hto.pos_le_of_stop hstop (.inr hnone)) (by omega)
      obtain ⟨rest, hrest, heq⟩ := hstop.split hto (Nat.le_of_lt hlt)
      have hlength := congrArg List.length heq
      rw [length_append] at hlength
      cases hcase : pos - stop with
      | zero => omega
      | succ more =>
        rw [hcase] at hrest
        cases hrest with
        | cons hne hsome rest' =>
          rw [length_append] at hlength
          change bytes.length = stopBytes.length + ((font.multiBytes (wcs stop)).length + _) at hlength
          omega
    . exact ⟨hpos, Nat.le_of_eq hconved⟩
    . exact ⟨hpos, by omega⟩
  constructor
  case bounded => exact hwritten
  case conved_le => omega
  case inside =>
    rw [hlast]
    exact hpos.1
  case resumes =>
    intro unlimited hunlimited limits _
    rw [wcsCalls_eq _ hunlimited hends, wcs2mbsEx_unlimited hunlimited]

theorem BytesTo.length_le {wcs : Nat → UInt32} (h : font.BytesTo wcs pos bytes)
    : bytes.length ≤ 16 * pos := by
  induction h with
  | nil => exact Nat.le_refl _
  | @cons wcs pos bytes hne hbytes rest ih =>
    have hle := multiBytes_le font (wcs 0)
    rw [length_append]
    omega

theorem wcs2mbsEx_zero (hto : font.BytesTo wcs pos bytes) (hzero : wcs pos = 0)
    (hpos : pos < wcsLen) (hn : 16 * pos ≤ n)
    : (font.wcs2mbsEx wcs wcsLen n).bytes = bytes ∧ (font.wcs2mbsEx wcs wcsLen n).convedWcsLen = pos + 1 := by
  obtain ⟨bytes', pos', hto', -, hbytes, -, -, hend⟩ := wcs2mbsEx_spec font wcs wcsLen n
  have hle := hto'.pos_le_of_stop hto (.inl hzero)
  rcases hend with ⟨rfl, -⟩ | ⟨-, hzero', hconved⟩ | ⟨-, hne, -, hnone | hover⟩
  . omega
  . obtain rfl : pos = pos' := Nat.le_antisymm (hto.pos_le_of_stop hto' (.inl hzero')) hle
    rw [hbytes, hto'.unique hto]
    exact ⟨rfl, hconved⟩
  . obtain rfl : pos = pos' := Nat.le_antisymm (hto.pos_le_of_stop hto' (.inr hnone)) hle
    exact absurd hzero hne
  have hlength := hto'.length_le
  have hlast := multiBytes_le font (wcs pos')
  have hless : pos' < pos := by
    rcases Nat.lt_or_eq_of_le hle with hlt | rfl
    . exact hlt
    . exact absurd hzero hne
  omega

theorem wcsCalls_found (k : Nat) (hunlimited : unlimited ≥ 16 * wcsLen) (hzero : ∀ j < k, wcs j = 0)
    (hne : wcs k ≠ 0) (hsome : font.multiBytes (wcs k) ≠ []) (hk : k < wcsLen)
    : font.wcsCalls unlimited (replicate k 1) wcs wcsLen ≠ [] := by
  induction k generalizing wcs wcsLen with
  | zero =>
    unfold replicate wcsCalls
    rw [wcs2mbsEx_unlimited hunlimited]
    cases wcsLen with
    | zero => omega
    | succ left =>
      rw [allBytes, if_neg (not_or.mpr ⟨hne, hsome⟩)]
      exact fun h => hsome (append_eq_nil_iff.mp h).1
  | succ k ih =>
    obtain ⟨hbytes, hconved⟩ := wcs2mbsEx_zero (n := 1) (.nil wcs) (hzero 0 (Nat.succ_pos k)) (Nat.zero_lt_of_lt hk)
      (Nat.zero_le 1)
    rw [replicate_succ, wcsCalls]
    rw [hbytes, hconved, if_pos (by omega)]
    refine ih (by omega) (fun j hj => hzero _ (by omega)) ?_ ?_ (by omega)
    . rw [Nat.add_comm]
      exact hne
    . rw [Nat.add_comm]
      exact hsome

theorem zeroEnds_of_resumes (h : font.WcsResumes wcs wcsLen n) : font.ZeroEnds wcs wcsLen := by
  intro pos bytes hto hzero i hle hlt hbefore
  by_contra hother
  obtain ⟨hne, hsome⟩ := not_or.mp hother
  have hgt : pos < i := by
    rcases Nat.lt_or_eq_of_le hle with hgt | rfl
    . exact hgt
    . exact absurd hzero hne
  have hall : font.allBytes wcsLen wcs = bytes := by
    rw [allBytes_append hto (by omega), allBytes_stop _ (.inl hzero), append_nil]
  -- the calls behind the zero
  have hfound : font.wcsCalls (16 * wcsLen) (replicate (i - (pos + 1)) 1) (fun j => wcs (pos + 1 + j))
      (wcsLen - (pos + 1)) ≠ [] := by
    have hat : pos + 1 + (i - (pos + 1)) = i := by omega
    refine wcsCalls_found _ (by omega) (fun j hj => hbefore _ (by omega) (by omega)) ?_ ?_ (by omega)
    . rw [hat]
      exact hne
    . rw [hat]
      exact hsome
  obtain ⟨bytes', pos', hto', -, hbytes, hlast, -, hend⟩ := wcs2mbsEx_spec font wcs wcsLen n
  have hpos' := hto'.pos_le_of_stop hto (.inl hzero)
  have hinside := h.inside
  rw [hlast] at hinside
  rcases hend with ⟨rfl, -⟩ | ⟨-, hzero', hconved⟩ | ⟨-, hne', hconved, -⟩
  . omega
  . -- the call comes to the zero
    obtain rfl : pos = pos' := Nat.le_antisymm (hto.pos_le_of_stop hto' (.inl hzero')) hpos'
    have hcalls := h.resumes (16 * wcsLen) (Nat.le_refl _) (replicate (i - (pos + 1)) 1)
      (fun n hn => (eq_of_mem_replicate hn).ge)
    rw [wcs2mbsEx_unlimited (Nat.le_refl _), hall, wcsCalls] at hcalls
    rw [hconved, hbytes, hto'.unique hto, if_pos (by omega)] at hcalls
    exact hfound (append_right_eq_self.mp hcalls)
  -- the limit ends it before, and the next call comes to the zero
  obtain ⟨rest, hrest, heq⟩ := hto'.split hto hpos'
  have hat : pos' + (pos - pos') = pos := by omega
  have hcalls := h.resumes (16 * wcsLen) (Nat.le_refl _) ((16 * wcsLen + 1) :: replicate (i - (pos + 1)) 1) (by
    intro n hn
    rcases mem_cons.mp hn with rfl | hn
    . omega
    . exact (eq_of_mem_replicate hn).ge)
  have hsecond : (font.wcs2mbsEx (fun j => wcs (pos' + j)) (wcsLen - pos') (16 * wcsLen + 1)).bytes = rest
      ∧ (font.wcs2mbsEx (fun j => wcs (pos' + j)) (wcsLen - pos') (16 * wcsLen + 1)).convedWcsLen
        = pos - pos' + 1 := by
    refine wcs2mbsEx_zero hrest ?_ (by omega) (by omega)
    rw [hat]
    exact hzero
  have hshift : (fun j => wcs (pos' + (pos - pos' + 1 + j))) = fun j => wcs (pos + 1 + j) := by
    funext j
    congr 1
    omega
  have hleft : wcsLen - pos' - (pos - pos' + 1) = wcsLen - (pos + 1) := by omega
  rw [wcs2mbsEx_unlimited (Nat.le_refl _), hall, wcsCalls] at hcalls
  rw [hconved, hbytes, if_pos (by omega), wcsCalls] at hcalls
  rw [hsecond.1, hsecond.2, if_pos (by omega), hshift, hleft, ← append_assoc, ← heq] at hcalls
  exact hfound (append_right_eq_self.mp hcalls)

theorem wcsStops_of_resumes (h : font.WcsResumes wcs wcsLen n) : font.WcsStops wcs wcsLen n := by
  obtain ⟨bytes, pos, hto, -, -, hlast, -, hend⟩ := wcs2mbsEx_spec font wcs wcsLen n
  have hinside := h.inside
  rw [hlast] at hinside
  rcases hend with ⟨rfl, -⟩ | ⟨-, hzero, -⟩ | ⟨-, -, -, hstop⟩
  . omega
  . exact ⟨pos, bytes, hto, hinside, .inl hzero⟩
  . exact ⟨pos, bytes, hto, hinside, .inr hstop⟩

end Calls

/--
A conversion of bytes can be resumed only if it comes to a zero byte below its limit, with nothing but zeros behind; one
of wide characters, if it does not come to the end of the source, and nothing is to be converted behind a zero.
-/
theorem resumes_iff (font : ConvFont) (n : Nat) (hn : n ≥ 1)
    : (∀ wc32 mstr mstrLen, font.MbsResumes wc32 mstr mstrLen n ↔ font.MbsOk mstr mstrLen n)
      ∧ ∀ wcs wcsLen, font.WcsResumes wcs wcsLen n ↔ font.WcsStops wcs wcsLen n ∧ font.ZeroEnds wcs wcsLen :=
  ⟨fun _ _ _ => ⟨mbsOk_of_resumes hn, mbsResumes_of_ok⟩,
    fun _ _ => ⟨fun h => ⟨wcsStops_of_resumes h, zeroEnds_of_resumes h⟩, fun h => wcsResumes_of_ok h.1 h.2⟩⟩

def latin1Conv : CharsetConv where
  convToUc32 mstr := (mstr 0).toUInt32
  convFromUc32 uc32 := if uc32 < 0x100 then [uc32.toUInt8] else []
  convFromUc32_le uc32 := by
    split
    . exact Nat.succ_le_succ (Nat.zero_le 15)
    . exact Nat.zero_le 16

def latin1Font : ConvFont where
  sbcDevfont := .sb
  mbcDevfont := none
  sbcConv := latin1Conv
  mbcConv := latin1Conv

theorem resumes_iff_latin1
    : (∀ wc32 mstr mstrLen, latin1Font.MbsResumes wc32 mstr mstrLen 4 ↔ latin1Font.MbsOk mstr mstrLen 4)
      ∧ ∀ wcs wcsLen, latin1Font.WcsResumes wcs wcsLen 4 ↔ latin1Font.WcsStops wcs wcsLen 4 ∧ latin1Font.ZeroEnds wcs wcsLen :=
  resumes_iff latin1Font 4 (by decide)

theorem not_resumes_letters : ¬ ∀ (font : ConvFont) wc32 mstr mstrLen n, n ≥ 1 → font.MbsResumes wc32 mstr mstrLen n := by
  intro h
  have hcalls := (h latin1Font true (fun i => if i = 0 then 0x61 else if i = 1 then 0x62 else 0) 2 1 (by decide)).resumes 3
    (by decide) [] (fun n hn => nomatch hn)
  exact absurd hcalls (by decide)

end MiniGui.ConvFont
