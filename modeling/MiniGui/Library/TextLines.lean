import Mathlib

namespace TextLines

open Function List

abbrev Text := List Char

structure LineBuffer where
  size : Nat
  two_le : 2 ≤ size

def readLine : Nat → Text → Text
  | 0, _ => []
  | _ + 1, [] => []
  | n + 1, c :: rest => if c = '\n' then ['\n'] else c :: readLine n rest

def fgets (b : LineBuffer) (fp : Text) : Option (Text × Text) :=
  if fp = [] then
    none
  else
    some (readLine (b.size - 1) fp, fp.drop (readLine (b.size - 1) fp).length)

def cString (buf : Text) : Text :=
  buf.takeWhile (· ≠ '\x00')

def stripNewline (s : Text) : Text :=
  if s.getLast? = some '\n' then s.dropLast else s

def strncpy (s : Text) (n : Nat) : Text :=
  s.take n

theorem readLine_prefix (n : Nat) (s : Text) : readLine n s <+: s := by
  induction n generalizing s with
  | zero => exact nil_prefix
  | succ n ih =>
    cases s with
    | nil => exact nil_prefix
    | cons c rest =>
      unfold readLine
      split
      next h =>
        rw [h]
        exact ⟨rest, rfl⟩
      next =>
        rw [cons_prefix_cons]
        exact ⟨rfl, ih rest⟩

variable {n : Nat} {s t : Text}

theorem readLine_pos (hn : 0 < n) (hs : s ≠ []) : 0 < (readLine n s).length := by
  cases n with
  | zero => omega
  | succ n =>
    cases s with
    | nil => contradiction
    | cons c rest =>
      unfold readLine
      split
      . decide
      . simp

theorem readLine_length (n : Nat) (s : Text) : (readLine n s).length ≤ n := by
  induction n generalizing s with
  | zero => exact Nat.le_refl 0
  | succ n ih =>
    cases s with
    | nil => exact Nat.zero_le _
    | cons c rest =>
      unfold readLine
      split
      . simp
      . have hrest := ih rest
        rw [length_cons]
        omega

theorem readLine_cases (n : Nat) (s : Text)
    : '\n' ∉ readLine n s ∨ ∃ t, '\n' ∉ t ∧ readLine n s = t ++ ['\n'] := by
  induction n generalizing s with
  | zero => exact .inl not_mem_nil
  | succ n ih =>
    cases s with
    | nil => exact .inl not_mem_nil
    | cons c rest =>
      unfold readLine
      split
      . exact .inr ⟨[], not_mem_nil, rfl⟩
      next hc =>
        have hne : '\n' ≠ c := Ne.symm hc
        rcases ih rest with h | ⟨t, ht, heq⟩
        . left
          rw [mem_cons, not_or]
          exact ⟨hne, h⟩
        right
        refine ⟨c :: t, ?_, ?_⟩
        . rw [mem_cons, not_or]
          exact ⟨hne, ht⟩
        . rw [heq]
          rfl

theorem readLine_append {n : Nat} {t : Text} (ht : '\n' ∉ t) (hlen : t.length ≤ n) (r : Text)
    : readLine n (t ++ r) = t ++ readLine (n - t.length) r := by
  induction t generalizing n with
  | nil => rfl
  | cons c t ih =>
    rw [length_cons] at hlen
    cases n with
    | zero => omega
    | succ n =>
      rw [mem_cons, not_or] at ht
      rw [cons_append, readLine, if_neg (Ne.symm ht.1), ih ht.2 (by omega), length_cons,
        Nat.succ_sub_succ]
      rfl

variable {b : LineBuffer} {fp line rest : Text}

theorem fgets_append (h : fgets b fp = some (line, rest)) : line ++ rest = fp := by
  unfold fgets at h
  split at h
  . contradiction
  injection h with h
  injection h with hline hrest
  rw [← hrest, ← hline]
  have hstart := readLine_prefix (b.size - 1) fp
  exact (prefix_iff_eq_append.mp hstart)

theorem fgets_pos (h : fgets b fp = some (line, rest)) : 0 < line.length := by
  unfold fgets at h
  split at h
  . contradiction
  next hne =>
    injection h with h
    injection h with hline hrest
    rw [← hline]
    have hsize := b.two_le
    apply readLine_pos
    . omega
    . exact hne

theorem fgets_lt (h : fgets b fp = some (line, rest)) : rest.length < fp.length := by
  have hpos := fgets_pos h
  rw [← fgets_append h, length_append]
  omega

theorem fgets_eq_none : fgets b fp = none ↔ fp = [] := by
  unfold fgets
  split
  . simpa
  . simpa

def chunks (b : LineBuffer) (fp : Text) : List Text :=
  match _h : fgets b fp with
  | none => []
  | some (line, rest) => line :: chunks b rest
termination_by fp.length
decreasing_by exact fgets_lt _h

theorem chunks_nil : chunks b [] = [] := by
  rw [chunks]
  rfl

theorem chunks_of_fgets (h : fgets b fp = some (line, rest))
    : chunks b fp = line :: chunks b rest := by
  rw [chunks]
  split
  next hnone =>
    rw [h] at hnone
    contradiction
  next hsome =>
    rw [h] at hsome
    injection hsome with hpair
    injection hpair with hline hrest
    rw [hline, hrest]

def textOf (buf : Text) : Text :=
  stripNewline (cString buf)

theorem cString_eq_self (h : '\x00' ∉ s) : cString s = s := by
  unfold cString
  rw [takeWhile_eq_self_iff]
  intro c hc
  rw [decide_eq_true_iff]
  rintro rfl
  contradiction

theorem stripNewline_eq_self (h : '\n' ∉ s) : stripNewline s = s := by
  unfold stripNewline
  rw [if_neg]
  intro hlast
  exact h (mem_of_getLast? hlast)

theorem stripNewline_append (s : Text) : stripNewline (s ++ ['\n']) = s := by
  unfold stripNewline
  rw [getLast?_concat, if_pos rfl, dropLast_concat]

theorem chunks_line {t : Text} (ht : '\n' ∉ t) (hlen : t.length < b.size) (r : Text)
    : chunks b (t ++ '\n' :: r) = (t ++ ['\n']) :: chunks b r
      ∨ chunks b (t ++ '\n' :: r) = t :: ['\n'] :: chunks b r := by
  have hsize := b.two_le
  have hread := @readLine_append (b.size - 1) t ht (by omega) ('\n' :: r)
  have hne : t ++ '\n' :: r ≠ [] := by simp
  rcases Nat.lt_or_ge t.length (b.size - 1) with hlt | hge
  . left
    apply chunks_of_fgets
    obtain ⟨m, hm⟩ : ∃ m, b.size - 1 - t.length = m + 1 := ⟨b.size - 1 - t.length - 1, by omega⟩
    rw [hm, readLine, if_pos rfl] at hread
    rw [fgets, if_neg hne, hread]
    congr
    simp
  right
  have hzero : b.size - 1 - t.length = 0 := by omega
  rw [hzero, readLine, append_nil] at hread
  have hfirst : fgets b (t ++ '\n' :: r) = some (t, '\n' :: r) := by
    rw [fgets, if_neg hne, hread, drop_left]
  have hsecond : fgets b ('\n' :: r) = some (['\n'], r) := by
    obtain ⟨m, hm⟩ : ∃ m, b.size - 1 = m + 1 := ⟨b.size - 2, by omega⟩
    rw [fgets, if_neg (by simp), hm, readLine, if_pos rfl]
    rfl
  rw [chunks_of_fgets hfirst, chunks_of_fgets hsecond]

theorem chunks_last (ht : '\n' ∉ t) (hlen : t.length < b.size) (hne : t ≠ [])
    : chunks b t = [t] := by
  have hread := @readLine_append (b.size - 1) t ht (by omega) []
  have hnil : readLine (b.size - 1 - t.length) [] = [] := by
    cases b.size - 1 - t.length with
    | zero => rfl
    | succ n => rfl
  rw [hnil, append_nil] at hread
  have hfirst : fgets b t = some (t, []) := by
    rw [fgets, if_neg hne, hread, drop_length]
  rw [chunks_of_fgets hfirst, chunks_nil]

theorem textOf_of_fgets (h : fgets b fp = some (line, rest))
    : textOf line <:+: fp ∧ '\n' ∉ textOf line ∧ (textOf line).length < b.size := by
  have hline : line = readLine (b.size - 1) fp := by
    unfold fgets at h
    split at h
    . contradiction
    . injection h with h
      injection h with h _
      exact h.symm
  have hsize := b.two_le
  have hlen := readLine_length (b.size - 1) fp
  have hstart : cString line <+: line := takeWhile_prefix _
  have hfp : line <+: fp := ⟨rest, fgets_append h⟩
  have hstrip : stripNewline (cString line) <+: cString line := by
    unfold stripNewline
    split
    . exact dropLast_prefix _
    . exact prefix_rfl
  refine ⟨(hstrip.trans (hstart.trans hfp)).isInfix, ?_, ?_⟩
  . unfold textOf
    rcases readLine_cases (b.size - 1) fp with hnot | ⟨t, ht, heq⟩
    . intro hmem
      apply hnot
      rw [← hline]
      exact hstart.subset (hstrip.subset hmem)
    rw [← hline] at heq
    rw [heq, prefix_concat_iff] at hstart
    rw [heq]
    rcases hstart with hwhole | hpart
    . rw [hwhole, stripNewline_append]
      exact ht
    . have hnot : '\n' ∉ cString (t ++ ['\n']) := fun hmem => ht (hpart.subset hmem)
      rw [stripNewline_eq_self hnot]
      exact hnot
  have h1 := hstrip.length_le
  have h2 := hstart.length_le
  rw [← hline] at hlen
  unfold textOf
  omega

theorem infix_of_infix_newline {t a r : Text} (ht : '\n' ∉ t) (h : t <:+: a ++ '\n' :: r)
    : t <:+: a ∨ t <:+: r := by
  induction a with
  | nil =>
    rw [nil_append, infix_cons_iff] at h
    rcases h with h | h
    . left
      cases t with
      | nil => exact nil_infix
      | cons c t =>
        rw [cons_prefix_cons] at h
        rw [h.1] at ht
        exact absurd mem_cons_self ht
    . exact .inr h
  | cons c a ih =>
    rw [cons_append, infix_cons_iff] at h
    rcases h with h | h
    . left
      have hsplit : t <+: c :: a ∨ c :: a <+: t := by
        apply prefix_or_prefix_of_prefix h
        exact ⟨'\n' :: r, rfl⟩
      rcases hsplit with hpre | ⟨z, hz⟩
      . exact hpre.isInfix
      rw [← hz, ← cons_append, prefix_append_right_inj] at h
      cases z with
      | nil =>
        rw [← hz, append_nil]
      | cons d z =>
        rw [cons_prefix_cons] at h
        rw [← hz, h.1] at ht
        exact absurd (mem_append_right _ mem_cons_self) ht
    . rcases ih h with hleft | hright
      . exact .inl (hleft.trans (suffix_cons c a).isInfix)
      . exact .inr hright

section FilterMap

variable {β : Type} {f : Text → Option β}

def parsed (b : LineBuffer) (f : Text → Option β) (fp : Text) : List β :=
  (chunks b fp).filterMap (f ∘ textOf)

theorem parsed_nil : parsed b f [] = [] := by
  unfold parsed
  rw [chunks_nil]
  rfl

theorem filterMap_cons_toList {α : Type} (g : α → Option β) (a : α) (l : List α)
    : (a :: l).filterMap g = (g a).toList ++ l.filterMap g := by
  rw [filterMap_cons]
  cases g a with
  | none => rfl
  | some x => rfl

theorem parsed_of_fgets (h : fgets b fp = some (line, rest))
    : parsed b f fp = (f (textOf line)).toList ++ parsed b f rest := by
  unfold parsed
  rw [chunks_of_fgets h, filterMap_cons_toList]
  rfl

theorem parsed_line (hf : f [] = none) (ht : '\n' ∉ t) (hz : '\x00' ∉ t) (hlen : t.length < b.size)
    (r : Text) : parsed b f (t ++ '\n' :: r) = (f t).toList ++ parsed b f r := by
  have hwhole : textOf (t ++ ['\n']) = t := by
    unfold textOf
    rw [cString_eq_self, stripNewline_append]
    simp [hz]
  have htext : textOf t = t := by
    unfold textOf
    rw [cString_eq_self hz, stripNewline_eq_self ht]
  have hnewline : textOf ['\n'] = [] := by decide
  unfold parsed
  rcases @chunks_line b t ht hlen r with h | h
  . rw [h, filterMap_cons_toList, comp_apply, hwhole]
  . rw [h, filterMap_cons_toList, filterMap_cons_toList, comp_apply, comp_apply, htext, hnewline, hf]
    rfl

theorem parsed_last (hf : f [] = none) (ht : '\n' ∉ t) (hz : '\x00' ∉ t) (hlen : t.length < b.size)
    : parsed b f t = (f t).toList := by
  rcases eq_or_ne t [] with rfl | hne
  . rw [parsed_nil, hf]
    rfl
  . unfold parsed
    rw [chunks_last ht hlen hne, filterMap_cons_toList, comp_apply, textOf, cString_eq_self hz,
      stripNewline_eq_self ht, filterMap_nil, append_nil]

theorem mem_parsed {x : β} (h : x ∈ parsed b f fp)
    : ∃ t, t <:+: fp ∧ '\n' ∉ t ∧ t.length < b.size ∧ f t = some x := by
  induction hn : fp.length using Nat.strong_induction_on generalizing fp with
  | _ n ih =>
    rcases hread : fgets b fp with _ | ⟨line, rest⟩
    . rw [fgets_eq_none.mp hread, parsed_nil] at h
      contradiction
    rw [parsed_of_fgets hread, mem_append, Option.mem_toList] at h
    have hlt := fgets_lt hread
    have htext := textOf_of_fgets hread
    rcases h with h | h
    . exact ⟨textOf line, htext.1, htext.2.1, htext.2.2, h⟩
    . obtain ⟨t, ht, hrest⟩ := @ih rest.length (by omega) rest h rfl
      have hsuffix : rest <:+ fp := ⟨line, fgets_append hread⟩
      exact ⟨t, ht.trans hsuffix.isInfix, hrest⟩

def LinesShorter (n : Nat) (fp : Text) : Prop :=
  ∀ t, t <:+: fp → '\n' ∉ t → t.length < n

theorem LinesShorter.within (h : LinesShorter n fp) (hs : s <:+: fp) : LinesShorter n s :=
  fun t ht => h t (ht.trans hs)

theorem LinesShorter.of_le {m : Nat} (h : LinesShorter n fp) (hnm : n ≤ m) : LinesShorter m fp :=
  fun t ht hn => Nat.lt_of_lt_of_le (h t ht hn) hnm

theorem exists_line (s : Text) : '\n' ∉ s ∨ ∃ t r, '\n' ∉ t ∧ s = t ++ '\n' :: r := by
  by_cases h : '\n' ∈ s
  . right
    obtain ⟨t, r, hsplit, hnot⟩ := eq_append_cons_of_mem h
    exact ⟨t, r, hnot, hsplit⟩
  . exact .inl h

theorem not_mem_of_mem_splitOn (h : t ∈ fp.splitOn '\n') : '\n' ∉ t := by
  induction hn : fp.length using Nat.strong_induction_on generalizing fp with
  | _ n ih =>
    rcases exists_line fp with hone | ⟨s, r, hs, rfl⟩
    . rw [splitOn_eq_singleton hone, mem_singleton] at h
      rwa [h]
    rw [splitOn_append_cons_self_of_not_mem hs, mem_cons] at h
    rw [length_append, length_cons] at hn
    rcases h with rfl | h
    . exact hs
    . exact @ih r.length (by omega) r h rfl

theorem parsed_eq_splitOn (hf : f [] = none) (hz : '\x00' ∉ fp) (hshort : LinesShorter b.size fp)
    : parsed b f fp = (fp.splitOn '\n').filterMap f := by
  induction hn : fp.length using Nat.strong_induction_on generalizing fp with
  | _ n ih =>
    rcases exists_line fp with hone | ⟨t, r, ht, rfl⟩
    . have hlen := hshort fp infix_rfl hone
      rw [parsed_last hf hone hz hlen, splitOn_eq_singleton hone, filterMap_cons_toList,
        filterMap_nil, append_nil]
    rw [mem_append, mem_cons, not_or, not_or] at hz
    have hlen := hshort t (prefix_append _ _).isInfix ht
    have hrest : LinesShorter b.size r := hshort.within ⟨t ++ ['\n'], [], by simp⟩
    rw [parsed_line hf ht hz.1 hlen, splitOn_append_cons_self_of_not_mem ht, filterMap_cons_toList]
    rw [length_append, length_cons] at hn
    rw [@ih r.length (by omega) r hz.2.2 hrest rfl]

end FilterMap

end TextLines
