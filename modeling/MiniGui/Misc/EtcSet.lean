import MiniGui.Misc.EtcRewrite

namespace MiniGui.Etc

open List Option

open TextLines

def SameAnswer (r r' : Status × Str) : Prop :=
  (r.1 = .ok ↔ r'.1 = .ok) ∧ r.2 = r'.2

structure WritesOnly (content content' pSection pKey pValue : Str) : Prop where
  written : ∀ iLen,
    getValueFromEtcFile (some content') (some pSection) pKey iLen = (.ok, strncpy pValue iLen)
  sections : ∀ pSection', pSection' ≠ pSection → ∀ pKey' iLen,
    getValueFromEtcFile (some content') (some pSection') pKey' iLen =
      getValueFromEtcFile (some content) (some pSection') pKey' iLen
  keys : ∀ pKey', pKey' ≠ pKey → ∀ iLen,
    SameAnswer (getValueFromEtcFile (some content') (some pSection) pKey' iLen)
      (getValueFromEtcFile (some content) (some pSection) pKey' iLen)

def HeaderEnded (content pSection : Str) : Prop :=
  ∀ line, (content.splitOn '\n').getLast? = some line → getSectionName line = some pSection →
    ∃ line' ∈ (content.splitOn '\n').dropLast, getSectionName line' = some pSection

def PairFits (pKey pValue : Str) : Prop :=
  (printPair pKey pValue).length ≤ ETC_MAXLINE ∨ pValue = [] ∧ (printPair pKey pValue).length = ETC_MAXLINE + 1

def spill (pKey pValue : Str) : List (Str × Str) :=
  if (printPair pKey pValue).length ≤ ETC_MAXLINE then [] else [([], [])]

structure Settable (content pSection pKey pValue : Str) : Prop where
  name_head : NoLeadingBlank pSection
  key_head : NoLeadingBlank pKey
  key_last : NoTrailingBlank pKey
  fits : PairFits pKey pValue
  new : afterHeader pSection (items content) = none →
    (printHeader pSection).length ≤ ETC_MAXLINE ∧ (printPair pKey pValue).length ≤ ETC_MAXLINE
  ended : HeaderEnded content pSection
  empty_key : ∀ rest, afterHeader pSection (items content) = some rest → pKey ≠ [] →
    etcGetKey (entries rest) [] = etcGetKey (spill pKey pValue ++ behind pKey (entries rest)) []

section Keys

variable {keys more : List (Str × Str)} {pKey pKey' pValue : Str}

theorem etcGetKey_append
    : etcGetKey (keys ++ more) pKey = (etcGetKey keys pKey).or (etcGetKey more pKey) := by
  induction keys with
  | nil => rfl
  | cons entry keys ih =>
    rw [cons_append, etcGetKey_cons entry.1 entry.2, etcGetKey_cons entry.1 entry.2, ih]
    split
    . rfl
    . rfl

theorem mem_of_etcGetKey (h : etcGetKey keys pKey = some pValue) : (pKey, pValue) ∈ keys := by
  unfold etcGetKey at h
  obtain ⟨entry, hfind, hvalue⟩ := map_eq_some_iff.mp h
  have hkey := find?_some hfind
  rw [decide_eq_true_iff] at hkey
  rw [← hkey, ← hvalue]
  exact mem_of_find?_eq_some hfind

theorem etcGetKey_before : etcGetKey (before pKey keys) pKey = none := by
  induction keys with
  | nil => rfl
  | cons entry keys ih =>
    obtain ⟨key, value⟩ := entry
    by_cases h : key = pKey
    . simp [before, h, etcGetKey]
    . rw [before_cons_of_ne h, etcGetKey_cons, if_neg h, ih]

theorem etcGetKey_kept (h : pKey ≠ []) : etcGetKey (kept keys) pKey = etcGetKey keys pKey := by
  induction keys with
  | nil => rfl
  | cons entry keys ih =>
    obtain ⟨key, value⟩ := entry
    unfold kept at ih ⊢
    rw [filter_cons, etcGetKey_cons]
    by_cases hkey : key = []
    . rw [if_neg (by simp [hkey]), ih, if_neg]
      rw [hkey]
      exact Ne.symm h
    . rw [if_pos (by simp [hkey]), etcGetKey_cons, ih]

theorem etcGetKey_kept_nil : etcGetKey (kept keys) [] = none := by
  unfold etcGetKey kept
  rw [map_eq_none_iff, find?_eq_none]
  intro entry hentry
  rw [mem_filter] at hentry
  simpa using hentry.2

theorem etcGetKey_split (h : pKey' ≠ pKey)
    : etcGetKey keys pKey' = (etcGetKey (before pKey keys) pKey').or (etcGetKey (behind pKey keys) pKey') := by
  induction keys with
  | nil => rfl
  | cons entry keys ih =>
    obtain ⟨key, value⟩ := entry
    by_cases hkey : key = pKey
    . have hbefore : before pKey ((key, value) :: keys) = [] := by simp [before, hkey]
      have hbehind : behind pKey ((key, value) :: keys) = keys := by simp [behind, hkey]
      rw [hbefore, hbehind, etcGetKey_cons, if_neg]
      . rfl
      . rw [hkey]
        exact Ne.symm h
    rw [before_cons_of_ne hkey, behind_cons_of_ne hkey, etcGetKey_cons, etcGetKey_cons, ih]
    split
    . rfl
    . rfl

def rewritten (pKey pValue : Str) (keys : List (Str × Str)) : List (Str × Str) :=
  kept (before pKey keys) ++ (pKey, pValue) :: (spill pKey pValue ++ behind pKey keys)

theorem etcGetKey_rewritten : etcGetKey (rewritten pKey pValue keys) pKey = some pValue := by
  have hnone : etcGetKey (kept (before pKey keys)) pKey = none := by
    rcases eq_or_ne pKey [] with rfl | hne
    . exact etcGetKey_kept_nil
    . rw [etcGetKey_kept hne, etcGetKey_before]
  unfold rewritten
  rw [etcGetKey_append, hnone, etcGetKey_cons, if_pos rfl]
  rfl

theorem etcGetKey_spill (h : pKey' ≠ []) : etcGetKey (spill pKey pValue) pKey' = none := by
  unfold spill
  split
  . rfl
  . rw [etcGetKey_cons, if_neg (Ne.symm h)]
    rfl

theorem etcGetKey_rewritten_other (h : pKey' ≠ pKey) (hne : pKey' ≠ [])
    : etcGetKey (rewritten pKey pValue keys) pKey' = etcGetKey keys pKey' := by
  unfold rewritten
  rw [etcGetKey_append, etcGetKey_cons, if_neg (Ne.symm h), etcGetKey_append, etcGetKey_spill hne,
    etcGetKey_kept hne, @etcGetKey_split keys _ _ h]
  rfl

theorem etcGetKey_rewritten_empty (h : pKey ≠ [])
    : etcGetKey (rewritten pKey pValue keys) [] = etcGetKey (spill pKey pValue ++ behind pKey keys) [] := by
  unfold rewritten
  rw [etcGetKey_append, etcGetKey_kept_nil, etcGetKey_cons, if_neg h]
  rfl

end Keys

variable {s t key : Str}

section Lookup

variable {l tail : List Item} {pSection pKey : Str}

def answer (value : Option Str) (iLen : Nat) : Status × Str :=
  match value with
  | none => (.keyNotFound, [])
  | some value => (.ok, strncpy value iLen)

theorem lookupIn_of_some (h : afterHeader pSection l = some tail) (pKey : Str) (iLen : Nat)
    : lookupIn l pSection pKey iLen = answer (etcGetKey (entries tail) pKey) iLen := by
  unfold lookupIn answer
  rcases hget : etcGetKey (entries tail) pKey with _ | value
  . simp only [h, hget]
  . simp only [h, hget]

theorem lookupIn_of_none (h : afterHeader pSection l = none) (pKey : Str) (iLen : Nat)
    : lookupIn l pSection pKey iLen = (.sectionNotFound, []) := by
  unfold lookupIn
  rw [h]

theorem strncpy_inj (h : ∀ n, strncpy s n = strncpy t n) : s = t := by
  have hall := h (s.length + t.length)
  unfold strncpy at hall
  rwa [take_of_length_le (by omega), take_of_length_le (by omega)] at hall

theorem sameAnswer_answer (value value' : Option Str)
    : (∀ iLen, SameAnswer (answer value iLen) (answer value' iLen)) ↔ value = value' := by
  constructor
  . intro h
    cases value with
    | none =>
      cases value' with
      | none => rfl
      | some w =>
        have hok := (h 0).1
        simp [answer] at hok
    | some v =>
      cases value' with
      | none =>
        have hok := (h 0).1
        simp [answer] at hok
      | some w => exact congrArg some (strncpy_inj fun n => (h n).2)
  . intro h iLen
    rw [h]
    exact ⟨Iff.rfl, rfl⟩

theorem afterHeader_append_of_none {more : List Item} (h : ∀ item ∈ l, item ≠ .header pSection)
    : afterHeader pSection (l ++ more) = afterHeader pSection more := by
  induction l with
  | nil => rfl
  | cons item l ih =>
    have hrest := ih fun a ha => h a (mem_cons_of_mem _ ha)
    cases item with
    | entry key value => exact hrest
    | header name =>
      have hne : name ≠ pSection := by
        rintro rfl
        exact h _ mem_cons_self rfl
      rw [cons_append, afterHeader, if_neg hne, hrest]

theorem afterHeader_eq_none (h : ∀ item ∈ l, item ≠ .header pSection)
    : afterHeader pSection l = none := by
  have hnil := @afterHeader_append_of_none l pSection [] h
  rw [append_nil] at hnil
  exact hnil

theorem afterHeader_suffix (h : afterHeader pSection l = some tail)
    : .header pSection :: tail <:+ l := by
  induction l with
  | nil => contradiction
  | cons item l ih =>
    cases item with
    | entry key value => exact (ih h).trans (suffix_cons _ _)
    | header name =>
      rw [afterHeader] at h
      split at h
      next hname =>
        injection h with h
        rw [hname, h]
      next => exact (ih h).trans (suffix_cons _ _)

theorem entries_append {more : List Item} (h : entries more = [])
    : entries (l ++ more) = entries l := by
  induction l with
  | nil => exact h
  | cons item l ih =>
    cases item with
    | header name => rfl
    | entry key value =>
      rw [cons_append, entries, entries, ih]

theorem afterHeader_pairs (keys : List (Str × Str)) (more : List Item)
    : afterHeader pSection (pairs keys ++ more) = afterHeader pSection more := by
  apply afterHeader_append_of_none
  intro item hitem heq
  obtain ⟨entry, _, hentry⟩ := List.mem_map.mp hitem
  rw [← hentry] at heq
  contradiction

theorem entries_dropEntries (l : List Item) : entries (dropEntries l) = [] := by
  induction l with
  | nil => rfl
  | cons item l ih =>
    cases item with
    | header name => rfl
    | entry key value => exact ih

theorem lookupIn_other {pSection' : Str} (hne : pSection' ≠ pSection) (keys : List (Str × Str)) {more : List Item}
    (hmore : entries more = []) (pKey : Str) (iLen : Nat)
    : lookupIn (l ++ .header pSection :: (pairs keys ++ more)) pSection' pKey iLen =
      lookupIn (l ++ more) pSection' pKey iLen := by
  have hheader : entries (.header pSection :: (pairs keys ++ more)) = [] := rfl
  induction l with
  | nil =>
    unfold lookupIn
    rw [nil_append, nil_append, afterHeader, if_neg (Ne.symm hne), afterHeader_pairs]
  | cons item l ih =>
    cases item with
    | entry key value => exact ih
    | header name =>
      by_cases h : name = pSection'
      . have hafter : ∀ r, afterHeader pSection' (.header name :: r) = some r := fun r => if_pos h
        rw [cons_append, cons_append, lookupIn_of_some (hafter _), lookupIn_of_some (hafter _),
          entries_append hheader, entries_append hmore]
      have hafter : ∀ r, lookupIn (.header name :: r) pSection' pKey iLen = lookupIn r pSection' pKey iLen := by
        intro r
        unfold lookupIn
        rw [afterHeader, if_neg h]
      rw [cons_append, cons_append, hafter, hafter, ih]

theorem afterHeader_self (h : ∀ item ∈ l, item ≠ .header pSection) (more : List Item)
    : afterHeader pSection (l ++ .header pSection :: more) = some more := by
  rw [afterHeader_append_of_none h, afterHeader, if_pos rfl]

theorem entries_pairs_append (keys : List (Str × Str)) {more : List Item} (hmore : entries more = [])
    : entries (pairs keys ++ more) = keys := by
  have h := entries_pairs keys more
  rw [hmore, append_nil] at h
  exact h

end Lookup

theorem getKeyValue_bare (h : PrintableKey key) (hne : key ≠ [])
    : getKeyValue key = .pair key [] := by
  have hskip : skipBlanks key = key := skipBlanks_eq_self fun c hc => (h.head c hc).1
  have hname : keyName key = key := by
    unfold keyName
    rw [takeWhile_eq_self_iff]
    intro c hc
    have hchars := h.chars c hc
    simp [hchars.1, hchars.2.1, hchars.2.2.1, hchars.2.2.2.1]
  have htrim : trimRight key = key := by
    unfold trimRight
    rw [rdropWhile_eq_self_iff]
    intro hkey
    simp [h.last _ (getLast?_eq_some_getLast hkey)]
  cases key with
  | nil => contradiction
  | cons c s =>
    have hchars := h.chars c mem_cons_self
    have hbracket := (h.head c rfl).2
    unfold getKeyValue
    rw [hskip]
    split
    next heq =>
      injection heq with hc _
      exact absurd hc hchars.2.2.1
    next heq =>
      injection heq with hc _
      exact absurd hc hchars.2.2.2.1
    next heq =>
      injection heq with hc _
      exact absurd hc hbracket
    next heq =>
      injection heq with hc _
      exact absurd hc hchars.2.1
    next heq => contradiction
    next =>
      rw [hname, htrim, drop_length]
      rfl

theorem fgets_full {r : Str} (ht : '\n' ∉ t) (hlen : t.length = ETC_MAXLINE - 1)
    : fgets szBuff (t ++ r) = some (t, r) := by
  have hsize : szBuff.size - 1 = t.length := by
    rw [hlen]
    rfl
  have hne : t ++ r ≠ [] := by
    intro hnil
    rw [append_eq_nil_iff] at hnil
    rw [hnil.1] at hlen
    contradiction
  have hread := @readLine_append (szBuff.size - 1) t ht (by omega) r
  have hzero : szBuff.size - 1 - t.length = 0 := by omega
  rw [hzero, readLine, append_nil] at hread
  rw [fgets, if_neg hne, hread, drop_left]

theorem items_full {r : Str} (ht : '\n' ∉ t) (hz : '\x00' ∉ t) (hlen : t.length = ETC_MAXLINE - 1)
    : items (t ++ r) = (classify t).toList ++ items r := by
  rw [items_of_fgets (fgets_full ht hlen), textOf, cString_eq_self hz, stripNewline_eq_self ht]

theorem items_printPair_spill {pKey pValue : Str} (hkey : PrintableKey pKey) (hvalue : SingleLine pValue)
    (hfits : PairFits pKey pValue) (r : Str)
    : items (printPair pKey pValue ++ r) = .entry pKey pValue :: (pairs (spill pKey pValue) ++ items r) := by
  unfold spill
  split
  next hlen => exact items_printPair hkey hvalue hlen r
  next hlen =>
    rcases hfits with hfit | ⟨rfl, hfull⟩
    . contradiction
    have hlength : pKey.length = ETC_MAXLINE - 1 := by
      unfold printPair at hfull
      simp at hfull
      omega
    have hne : pKey ≠ [] := by
      rintro rfl
      contradiction
    have hsplit : printPair pKey [] ++ r = pKey ++ (['='] ++ '\n' :: r) := by
      simp [printPair]
    rw [hsplit, items_full _ _ hlength, classify_of_pair (getKeyValue_bare hkey hne), items_line]
    . rfl
    . decide
    . decide
    . decide
    . exact fun h => (hkey.chars _ h).2.1 rfl
    . exact fun h => (hkey.chars _ h).2.2.2.2 rfl

theorem items_printHeader_full {name : Str} (h : PrintableName name)
    (hlen : (printHeader name).length = ETC_MAXLINE + 1) (r : Str)
    : items (printHeader name ++ r) = .header name :: .entry [']'] [] :: items r := by
  have hlength : ('[' :: name).length = ETC_MAXLINE - 1 := by
    unfold printHeader at hlen
    simp at hlen ⊢
    omega
  have hsplit : printHeader name ++ r = ('[' :: name) ++ ([']'] ++ '\n' :: r) := by
    simp [printHeader]
  have hskip : skipBlanks name = name := skipBlanks_eq_self h.head
  have hname : getSectionName ('[' :: name) = some name := by
    show some (sectionName (skipBlanks name)) = some name
    rw [hskip]
    unfold sectionName
    congr 1
    rw [takeWhile_eq_self_iff]
    intro c hc
    have hchars := h.chars c hc
    simp [hchars.1, hchars.2.1, hchars.2.2.1, hchars.2.2.2.1]
  rw [hsplit, items_full _ _ hlength, classify_of_name hname, items_line]
  . rfl
  . decide
  . decide
  . decide
  . intro hmem
    rw [mem_cons] at hmem
    rcases hmem with hmem | hmem
    . contradiction
    . exact (h.chars _ hmem).2.1 rfl
  intro hmem
  rw [mem_cons] at hmem
  rcases hmem with hmem | hmem
  . contradiction
  . exact (h.chars _ hmem).2.2.2.2 rfl

section Ended

variable {content pSection before name_line rest : Str}

theorem block_lines {a : Str} (h : Block a)
    : ∃ l : List Str, items a = l.filterMap classify ∧ ∀ r, (a ++ r).splitOn '\n' = l ++ r.splitOn '\n' := by
  induction h with
  | nil => exact ⟨[], items_nil, fun r => rfl⟩
  | @line t a hn hz hlen _ ih =>
    obtain ⟨l, hitems, hsplit⟩ := ih
    refine ⟨t :: l, ?_, ?_⟩
    . rw [items_line hn hz hlen, hitems, filterMap_cons_toList]
    . intro r
      rw [append_assoc, cons_append, splitOn_append_cons_self_of_not_mem hn, hsplit]
      rfl

theorem headerEnded_cut (h : Cut pSection content before name_line rest)
    : HeaderEnded content pSection ↔ ∃ t, '\n' ∉ t ∧ getSectionName t = some pSection ∧ name_line = t ++ ['\n'] := by
  obtain ⟨l, hitems, hsplit⟩ := block_lines h.block
  obtain ⟨t, ht, hname, hline⟩ := h.line
  constructor
  . intro hended
    rcases hline with hline | ⟨hline, hrest⟩
    . exact ⟨t, ht, hname, hline⟩
    exfalso
    have hlines : content.splitOn '\n' = l ++ [t] := by
      rw [h.eq, hline, hrest, append_nil, hsplit, splitOn_eq_singleton ht]
    obtain ⟨line, hmem, hsection⟩ := hended t (by rw [hlines, getLast?_concat]) hname
    rw [hlines, dropLast_concat] at hmem
    apply h.none (.header pSection)
    . rw [hitems, mem_filterMap]
      exact ⟨line, hmem, classify_of_name hsection⟩
    . rfl
  rintro ⟨t', ht', hname', hline'⟩ _ _ _
  refine ⟨t', ?_, hname'⟩
  have hlines : content.splitOn '\n' = l ++ t' :: rest.splitOn '\n' := by
    rw [h.eq, hline', append_assoc, append_assoc, singleton_append, hsplit,
      splitOn_append_cons_self_of_not_mem ht']
  rw [hlines, dropLast_append_of_ne_nil (by simp), dropLast_cons_of_ne_nil (splitOn_ne_nil _ _)]
  exact mem_append_right _ mem_cons_self

theorem getSectionName_append_isSome (h : (getSectionName t).isSome) (r : Str)
    : (getSectionName (t ++ r)).isSome := by
  rw [← getKeyValue_header] at h ⊢
  have hhead : ∃ s, skipBlanks t = '[' :: s := by
    unfold getKeyValue at h
    split at h
    . contradiction
    . contradiction
    next s heq => exact ⟨s, heq⟩
    . contradiction
    . contradiction
    . contradiction
  obtain ⟨s, hs⟩ := hhead
  have happend : skipBlanks (t ++ r) = '[' :: (s ++ r) := by
    unfold skipBlanks at hs ⊢
    rw [dropWhile_append, hs]
    rfl
  unfold getKeyValue
  rw [happend]
  rfl

theorem setValue_last {pKey pValue : Str} (hcut : Cut pSection content before name_line []) (hz : '\x00' ∉ content)
    (hk : '\x00' ∉ pKey) (hv : '\x00' ∉ pValue) (hlocated : etcLocateSection pSection content [] =
      { status := .ok, pValue := [], fp := [], bak_fp := before ++ name_line })
    : setValueToEtcFile (some content) pSection pKey pValue =
      (.ok, before ++ (name_line ++ (printPair pKey pValue ++ ['\n']))) := by
  rw [hcut.eq, not_mem_append, not_mem_append] at hz
  have hkey : ∀ bak_fp, etcLocateKeyValue pKey 0 [] bak_fp =
      { status := .fileIoFailed, pValue := [], fp := [], bak_fp := bak_fp } := by
    intro bak_fp
    rw [etcLocateKeyValue]
    simp [fgets]
  have hempty : ∀ b, etcFileCopy b [] = [] := fun b => etcFileCopy_eq not_mem_nil
  have hpair := not_mem_printPair hk hv
  unfold setValueToEtcFile etcCopyAndLocate
  dsimp only
  rw [hlocated]
  dsimp only
  rw [if_neg (by decide), hkey]
  dsimp only
  rw [if_pos (by decide), hempty, etcFileCopy_eq]
  . simp
  . simp [hz, hpair]

theorem infix_newline (ht : '\n' ∉ t) (h : t <:+: ['\n']) : t = [] := by
  have hnil := @infix_of_infix_newline t [] [] ht h
  rcases hnil with h | h
  . exact eq_nil_of_infix_nil h
  . exact eq_nil_of_infix_nil h

theorem classify_rest_ne {pKey pValue r w : Str} (hw : w ≠ []) (hsplit : w ++ r = printPair pKey pValue ++ ['\n'])
    (ht : t <:+: r) (hn : '\n' ∉ t) : classify t ≠ some (.entry pKey pValue) := by
  intro hclass
  obtain ⟨z, w, rfl⟩ := exists_cons_of_ne_nil hw
  obtain ⟨a, zs, hzs⟩ : ∃ a zs, pKey ++ '=' :: pValue = a :: zs := by
    cases pKey with
    | nil => exact ⟨'=', pValue, rfl⟩
    | cons a key => exact ⟨a, key ++ '=' :: pValue, rfl⟩
  have hprint : printPair pKey pValue ++ ['\n'] = a :: (zs ++ '\n' :: ['\n']) := by
    unfold printPair
    rw [hzs]
    simp
  rw [hprint, cons_append] at hsplit
  injection hsplit with _ hsplit
  have hwithin : t <:+: zs ++ '\n' :: ['\n'] := by
    rw [← hsplit]
    exact ht.trans (suffix_append w r).isInfix
  have hlen := congrArg List.length hzs
  rw [length_append, length_cons, length_cons] at hlen
  rcases infix_of_infix_newline hn hwithin with hwithin | hwithin
  . have hle := hwithin.length_le
    rcases getKeyValue_length (classify_eq_entry hclass) with hsize | ⟨rfl, hsize, heq⟩
    . omega
    rw [List.length_nil] at hlen
    have hwhole := hwithin.eq_of_length (by omega)
    rw [hwhole] at heq
    cases pKey with
    | nil =>
      injection hzs with _ hzs
      rw [hwhole, ← hzs] at hclass
      contradiction
    | cons b key =>
      injection hzs with _ hzs
      rw [← hzs] at heq
      apply heq
      simp
  . rw [infix_newline hn hwithin] at hclass
    contradiction

theorem not_written_unended {pKey pValue : Str} (hblock : Block before)
    (hnone : ∀ item ∈ items before, item ≠ .header pSection) (ht : '\n' ∉ t) (htz : '\x00' ∉ t)
    (hlen : t.length < ETC_MAXLINE - 1) (hname : getSectionName t = some pSection)
    (hk : '\x00' ∉ pKey) (hv : '\x00' ∉ pValue) {tail : List Item}
    (hafter : afterHeader pSection (items (before ++ (t ++ (printPair pKey pValue ++ ['\n'])))) = some tail)
    : etcGetKey (entries tail) pKey ≠ some pValue := by
  intro hget
  have hpair := not_mem_printPair hk hv
  rw [items_append hblock, afterHeader_append_of_none hnone] at hafter
  have hmem : Item.entry pKey pValue ∈ items (t ++ (printPair pKey pValue ++ ['\n'])) := by
    apply (afterHeader_suffix hafter).subset
    apply mem_cons_of_mem
    exact @mem_entries _ (pKey, pValue) (mem_of_etcGetKey hget)
  have hread := @readLine_append (szBuff.size - 1) t ht (Nat.le_of_lt hlen) (printPair pKey pValue ++ ['\n'])
  have hpos : 0 < szBuff.size - 1 - t.length := by
    have hsize : szBuff.size = ETC_MAXLINE := rfl
    omega
  have hne : printPair pKey pValue ++ ['\n'] ≠ [] := by simp
  have hw := readLine_pos hpos hne
  rcases hfgets : fgets szBuff (t ++ (printPair pKey pValue ++ ['\n'])) with _ | ⟨line, rest⟩
  . rw [fgets_eq_none.mp hfgets, items_nil] at hmem
    contradiction
  have happend := fgets_append hfgets
  have hline : line = t ++ readLine (szBuff.size - 1 - t.length) (printPair pKey pValue ++ ['\n']) := by
    unfold fgets at hfgets
    rw [if_neg (by simp)] at hfgets
    injection hfgets with hfgets
    injection hfgets with hfgets _
    rw [← hfgets, hread]
  generalize hwdef : readLine (szBuff.size - 1 - t.length) (printPair pKey pValue ++ ['\n']) = w at hline hw
  have hwne : w ≠ [] := ne_nil_of_length_pos hw
  have hrest : w ++ rest = printPair pKey pValue ++ ['\n'] := by
    rw [hline, append_assoc] at happend
    exact append_cancel_left happend
  have hlinez : '\x00' ∉ line := by
    intro hmem
    have hall : '\x00' ∈ t ++ (printPair pKey pValue ++ ['\n']) := by
      rw [← happend]
      exact mem_append_left _ hmem
    simp [htz, hpair] at hall
  have hheader : (getSectionName (textOf line)).isSome := by
    rw [← getSectionName_textOf, cString_eq_self hlinez, hline]
    apply getSectionName_append_isSome
    rw [hname]
    rfl
  obtain ⟨name, hname'⟩ := isSome_iff_exists.mp hheader
  rw [items_of_fgets hfgets, classify_of_name hname', toList_some, singleton_append,
    mem_cons] at hmem
  rcases hmem with hmem | hmem
  . contradiction
  . obtain ⟨t', ht', hn', _, hclass⟩ := mem_items hmem
    exact classify_rest_ne hwne hrest ht' hn' hclass

end Ended

section Main

variable {content content' pSection pKey pValue : Str}

theorem lookup_written (h : ∀ iLen, lookupIn (items content') pSection pKey iLen = (.ok, strncpy pValue iLen))
    : ∃ tail, afterHeader pSection (items content') = some tail ∧ etcGetKey (entries tail) pKey = some pValue := by
  rcases hafter : afterHeader pSection (items content') with _ | tail
  . have hnone := h 0
    rw [lookupIn_of_none hafter] at hnone
    injection hnone with hnone
    contradiction
  refine ⟨tail, rfl, ?_⟩
  apply (sameAnswer_answer _ _).mp
  intro iLen
  have hsome := h iLen
  rw [lookupIn_of_some hafter] at hsome
  rw [hsome]
  exact ⟨Iff.rfl, rfl⟩

theorem written_printable (hz : '\x00' ∉ content') {tail : List Item}
    (hafter : afterHeader pSection (items content') = some tail) (hget : etcGetKey (entries tail) pKey = some pValue)
    : PrintableName pSection ∧ PrintableKey pKey ∧ (printHeader pSection).length ≤ ETC_MAXLINE + 1
        ∧ PairFits pKey pValue := by
  have hsuffix := afterHeader_suffix hafter
  have hheader : Item.header pSection ∈ items content' := hsuffix.subset mem_cons_self
  have hentry : Item.entry pKey pValue ∈ items content' := by
    apply hsuffix.subset
    apply mem_cons_of_mem
    exact @mem_entries _ (pKey, pValue) (mem_of_etcGetKey hget)
  refine ⟨printable_of_mem hz hheader, (printable_of_mem hz hentry).1, ?_, ?_⟩
  . obtain ⟨t, _, _, hlen, hclass⟩ := mem_items hheader
    have hsize := getSectionName_length (classify_eq_header hclass)
    unfold printHeader
    simp
    omega
  obtain ⟨t, _, _, hlen, hclass⟩ := mem_items hentry
  unfold PairFits printPair
  rcases getKeyValue_length (classify_eq_entry hclass) with hsize | ⟨rfl, hsize, _⟩
  . left
    simp
    omega
  . simp
    omega

theorem writesOnly_iff : WritesOnly content content' pSection pKey pValue
      ↔ (∀ iLen, lookupIn (items content') pSection pKey iLen = (.ok, strncpy pValue iLen))
        ∧ (∀ pSection', pSection' ≠ pSection → ∀ pKey' iLen,
            lookupIn (items content') pSection' pKey' iLen = lookupIn (items content) pSection' pKey' iLen)
        ∧ ∀ pKey', pKey' ≠ pKey → ∀ iLen,
            SameAnswer (lookupIn (items content') pSection pKey' iLen) (lookupIn (items content) pSection pKey' iLen) := by
  constructor
  . intro h
    refine ⟨?_, ?_, ?_⟩
    . intro iLen
      rw [← getValueFromEtcFile_eq]
      exact h.written iLen
    . intro pSection' hne pKey' iLen
      rw [← getValueFromEtcFile_eq, ← getValueFromEtcFile_eq]
      exact h.sections pSection' hne pKey' iLen
    . intro pKey' hne iLen
      rw [← getValueFromEtcFile_eq, ← getValueFromEtcFile_eq]
      exact h.keys pKey' hne iLen
  rintro ⟨hwritten, hsections, hkeys⟩
  constructor
  . intro iLen
    rw [getValueFromEtcFile_eq]
    exact hwritten iLen
  . intro pSection' hne pKey' iLen
    rw [getValueFromEtcFile_eq, getValueFromEtcFile_eq]
    exact hsections pSection' hne pKey' iLen
  . intro pKey' hne iLen
    rw [getValueFromEtcFile_eq, getValueFromEtcFile_eq]
    exact hkeys pKey' hne iLen

theorem writesOnly_new (hnone : ∀ item ∈ items content, item ≠ .header pSection) {more : List (Str × Str)}
    (hitems : items content' = items content ++ .header pSection :: pairs ((pKey, pValue) :: more))
    : WritesOnly content content' pSection pKey pValue ↔ ∀ pKey', pKey' ≠ pKey → etcGetKey more pKey' = none := by
  have hold : ∀ pKey' iLen, lookupIn (items content) pSection pKey' iLen = (.sectionNotFound, []) := by
    intro pKey' iLen
    exact lookupIn_of_none (afterHeader_eq_none hnone) pKey' iLen
  have hentries : entries (pairs ((pKey, pValue) :: more)) = (pKey, pValue) :: more := by
    have h := @entries_pairs_append ((pKey, pValue) :: more) [] rfl
    rwa [append_nil] at h
  have hnew : ∀ pKey' iLen, lookupIn (items content') pSection pKey' iLen =
      answer (etcGetKey ((pKey, pValue) :: more) pKey') iLen := by
    intro pKey' iLen
    rw [hitems, lookupIn_of_some (afterHeader_self hnone _), hentries]
  have hother : ∀ pSection', pSection' ≠ pSection → ∀ pKey' iLen,
      lookupIn (items content') pSection' pKey' iLen = lookupIn (items content) pSection' pKey' iLen := by
    intro pSection' hne pKey' iLen
    have h := @lookupIn_other (items content) _ _ hne ((pKey, pValue) :: more) [] rfl pKey' iLen
    rw [append_nil, append_nil] at h
    rw [hitems]
    exact h
  rw [writesOnly_iff]
  constructor
  . rintro ⟨_, _, hkeys⟩ pKey' hne
    have hsame := hkeys pKey' hne 0
    rw [hnew, hold, etcGetKey_cons, if_neg (Ne.symm hne)] at hsame
    rcases hget : etcGetKey more pKey' with _ | value
    . rfl
    . rw [hget] at hsame
      have hok := hsame.1
      simp [answer] at hok
  intro hmore
  refine ⟨?_, hother, ?_⟩
  . intro iLen
    rw [hnew, etcGetKey_cons, if_pos rfl]
    rfl
  . intro pKey' hne iLen
    rw [hnew, hold, etcGetKey_cons, if_neg (Ne.symm hne), hmore pKey' hne]
    exact ⟨by simp [answer], rfl⟩

theorem writesOnly_old {first tail : List Item} (hnone : ∀ item ∈ first, item ≠ .header pSection)
    (hold : items content = first ++ .header pSection :: tail) (hnew : items content' =
      first ++ .header pSection :: (pairs (rewritten pKey pValue (entries tail)) ++ dropEntries tail))
    : WritesOnly content content' pSection pKey pValue ↔
      (pKey ≠ [] → etcGetKey (entries tail) [] = etcGetKey (spill pKey pValue ++ behind pKey (entries tail)) []) := by
  have hget : ∀ pKey' iLen, lookupIn (items content) pSection pKey' iLen =
      answer (etcGetKey (entries tail) pKey') iLen := by
    intro pKey' iLen
    rw [hold]
    exact lookupIn_of_some (afterHeader_self hnone tail) pKey' iLen
  have hget' : ∀ pKey' iLen, lookupIn (items content') pSection pKey' iLen =
      answer (etcGetKey (rewritten pKey pValue (entries tail)) pKey') iLen := by
    intro pKey' iLen
    rw [hnew, lookupIn_of_some (afterHeader_self hnone _), entries_pairs_append _ (entries_dropEntries tail)]
  have hother : ∀ pSection', pSection' ≠ pSection → ∀ pKey' iLen,
      lookupIn (items content') pSection' pKey' iLen = lookupIn (items content) pSection' pKey' iLen := by
    intro pSection' hne pKey' iLen
    have hsplit := pairs_append_dropEntries tail
    rw [hnew, lookupIn_other hne _ (entries_dropEntries tail), hold]
    conv =>
      rhs
      rw [← hsplit]
    rw [lookupIn_other hne _ (entries_dropEntries tail)]
  rw [writesOnly_iff]
  constructor
  . rintro ⟨_, _, hkeys⟩ hne
    have hsame := (sameAnswer_answer _ _).mp fun iLen => by
      have h := hkeys [] (Ne.symm hne) iLen
      rw [hget, hget'] at h
      exact h
    rw [etcGetKey_rewritten_empty hne] at hsame
    exact hsame.symm
  intro hempty
  refine ⟨?_, hother, ?_⟩
  . intro iLen
    rw [hget', etcGetKey_rewritten]
    rfl
  intro pKey' hne iLen
  rw [hget, hget']
  apply (sameAnswer_answer _ _).mpr
  rcases eq_or_ne pKey' [] with rfl | hkey
  . rw [etcGetKey_rewritten_empty (Ne.symm hne), hempty (Ne.symm hne)]
  . exact etcGetKey_rewritten_other hne hkey

theorem SyntaxFree.newline (h : SyntaxFree s) : '\n' ∉ s := by
  intro hmem
  have hchars := h _ hmem
  simp at hchars

theorem SyntaxFree.terminator (h : SyntaxFree s) : '\x00' ∉ s := by
  intro hmem
  have hchars := h _ hmem
  simp at hchars

theorem spill_eq_nil : spill pKey pValue = [] ↔ (printPair pKey pValue).length ≤ ETC_MAXLINE := by
  unfold spill
  split
  next h => simp [h]
  next h => simp [h]

theorem headerEnded_of_none (hz : '\x00' ∉ content) (hlines : LinesShorter (ETC_MAXLINE - 1) content)
    (hnone : ∀ item ∈ items content, item ≠ .header pSection) : HeaderEnded content pSection := by
  intro line hline hname
  exfalso
  apply hnone (.header pSection)
  . have hparsed := @parsed_eq_splitOn szBuff content _ classify rfl hz (hlines.of_le (by decide))
    unfold items
    rw [hparsed, mem_filterMap]
    exact ⟨line, mem_of_getLast? hline, classify_of_name hname⟩
  . rfl

theorem set_new (hz : '\x00' ∉ content) (hlines : LinesShorter (ETC_MAXLINE - 1) content) (hs : SyntaxFree pSection)
    (hk : SyntaxFree pKey) (hv : SingleLine pValue) (hnone : ∀ item ∈ items content, item ≠ .header pSection)
    : WritesOnly content (content ++ '\n' :: (printHeader pSection ++ printPair pKey pValue)) pSection pKey pValue
      ↔ Settable content pSection pKey pValue := by
  have hafter := afterHeader_eq_none hnone
  have hnew := items_append_newline hz (hlines.of_le (by decide)) (printHeader pSection ++ printPair pKey pValue)
  have hpair : PrintableKey pKey → PairFits pKey pValue →
      items (printPair pKey pValue) = pairs ((pKey, pValue) :: spill pKey pValue) := by
    intro hkey hfits
    have h := items_printPair_spill hkey hv hfits []
    rw [append_nil, items_nil, append_nil] at h
    exact h
  constructor
  . intro hwrites
    have hz' : '\x00' ∉ content ++ '\n' :: (printHeader pSection ++ printPair pKey pValue) := by
      have hheader := not_mem_printHeader hs.terminator
      have hpair := not_mem_printPair hk.terminator hv.terminator
      simp [hz, hheader, hpair]
    obtain ⟨tail, htail, hget⟩ := lookup_written (writesOnly_iff.mp hwrites).1
    obtain ⟨hname, hkey, hheader, hfits⟩ := written_printable hz' htail hget
    have hheaderfits : (printHeader pSection).length ≤ ETC_MAXLINE := by
      by_contra hover
      rw [items_printHeader_full hname (by omega), hpair hkey hfits] at hnew
      -- The bracket is a key of the section now, which had none before.
      have hbracket := (writesOnly_iff.mp hwrites).2.2 [']'] (by
        rintro rfl
        have hchars := hk ']' mem_cons_self
        simp at hchars) 0
      rw [hnew, lookupIn_of_none hafter, lookupIn_of_some (afterHeader_self hnone _), entries, etcGetKey_cons,
        if_pos rfl] at hbracket
      have hok := hbracket.1
      simp [answer] at hok
    rw [items_printHeader hname hheaderfits, hpair hkey hfits] at hnew
    have hspill : spill pKey pValue = [] := by
      have hmore := (writesOnly_new hnone hnew).mp hwrites
      unfold spill at hmore ⊢
      split
      . rfl
      next hover =>
        exfalso
        rw [if_neg hover] at hmore
        have hne : [] ≠ pKey := by
          rintro rfl
          rcases hfits with hfit | ⟨rfl, hfull⟩
          . exact hover hfit
          . contradiction
        have hget := hmore [] hne
        contradiction
    refine ⟨hname.head, fun c hc => (hkey.head c hc).1, hkey.last, hfits, ?_, ?_, ?_⟩
    . intro _
      exact ⟨hheaderfits, spill_eq_nil.mp hspill⟩
    . exact headerEnded_of_none hz hlines hnone
    . intro rest hrest
      rw [hafter] at hrest
      contradiction
  intro h
  have hname := hs.printableName h.name_head
  have hkey := hk.printableKey h.key_head h.key_last
  have hfit := h.new hafter
  rw [items_printHeader hname hfit.1, hpair hkey h.fits, spill_eq_nil.mpr hfit.2] at hnew
  rw [writesOnly_new hnone hnew]
  intro pKey' _
  rfl

theorem printPair_length_le {fp : Str} (hlines : LinesShorter (ETC_MAXLINE - 1) fp) {value : Str}
    (h : Item.entry key value ∈ items fp) : (printPair key value).length ≤ ETC_MAXLINE := by
  obtain ⟨t, ht, hn, _, hclass⟩ := mem_items h
  have hlen := hlines t ht hn
  unfold printPair
  simp
  rcases getKeyValue_length (classify_eq_entry hclass) with hsize | ⟨rfl, hsize, _⟩
  . omega
  . simp
    omega

theorem set_old {before_ name_line rest : Str} (hcut : Cut pSection content before_ name_line rest)
    (hlocated : etcLocateSection pSection content [] =
      { status := .ok, pValue := [], fp := rest, bak_fp := before_ ++ name_line })
    (hz : '\x00' ∉ content) (hlines : LinesShorter (ETC_MAXLINE - 1) content) (hk : SyntaxFree pKey)
    (hv : SingleLine pValue)
    : (∃ content', setValueToEtcFile (some content) pSection pKey pValue = (.ok, content')
          ∧ WritesOnly content content' pSection pKey pValue)
      ↔ Settable content pSection pKey pValue := by
  have hended := headerEnded_cut hcut
  have hparts := hz
  rw [hcut.eq, not_mem_append, not_mem_append] at hparts
  obtain ⟨t, ht, hname, hline⟩ := hcut.line
  have hwithin : t <:+: content := by
    rw [hcut.eq]
    rcases hline with hline | ⟨hline, _⟩
    . rw [hline]
      exact ⟨before_, '\n' :: rest, by simp⟩
    . rw [hline]
      exact ⟨before_, rest, by simp⟩
  have htz : '\x00' ∉ t := fun hmem => hz (hwithin.subset hmem)
  have hlen := hlines t hwithin ht
  rcases hline with hline | ⟨hline, hrest⟩
  . have hprintname : PrintableName pSection := getSectionName_printable htz hname
    have hold : items content = items before_ ++ .header pSection :: items rest := by
      rw [hcut.eq, hline, append_assoc, append_assoc, singleton_append, items_append hcut.block,
        items_line ht htz (by omega), classify_of_name hname]
      rfl
    have hafter : afterHeader pSection (items content) = some (items rest) := by
      rw [hold]
      exact afterHeader_self hcut.none _
    have hlinesrest : LinesShorter (ETC_MAXLINE - 1) rest := by
      apply hlines.within
      rw [hcut.eq]
      exact (suffix_append _ _).isInfix
    obtain ⟨left, hleftz, hleft, hset⟩ := setValue_old hcut hz hk.terminator hv.terminator hlocated
    have hnew : PrintableKey pKey → PairFits pKey pValue →
        items (before_ ++ name_line ++ printPairs (kept (before pKey (entries (items rest))))
            ++ printPair pKey pValue ++ left) =
          items before_ ++
            .header pSection :: (pairs (rewritten pKey pValue (entries (items rest))) ++ dropEntries (items rest)) := by
      intro hkey hfits
      have hkept : items (printPairs (kept (before pKey (entries (items rest)))) ++ (printPair pKey pValue ++ left)) =
          pairs (kept (before pKey (entries (items rest)))) ++ items (printPair pKey pValue ++ left) := by
        apply items_pairs
        . intro entry hentry
          exact printable_of_mem hparts.2 (mem_entries (mem_kept_before hentry))
        . intro entry hentry
          exact printPair_length_le hlinesrest (mem_entries (mem_kept_before hentry))
      rw [hline, append_assoc, append_assoc, append_assoc, append_assoc, singleton_append,
        items_append hcut.block, items_line ht htz (by omega), classify_of_name hname, hkept,
        items_printPair_spill hkey hv hfits, hleft]
      simp [rewritten, pairs]
    constructor
    . rintro ⟨content', hcontent, hwrites⟩
      rw [hset] at hcontent
      injection hcontent with _ hcontent
      have hz' : '\x00' ∉ content' := by
        have hprinted : '\x00' ∉ printPairs (kept (before pKey (entries (items rest)))) := by
          apply not_mem_printPairs
          intro entry hentry
          exact printable_of_mem hparts.2 (mem_entries (mem_kept_before hentry))
        have hpair := not_mem_printPair hk.terminator hv.terminator
        rw [← hcontent]
        simp [hparts, hprinted, hpair, hleftz]
      obtain ⟨tail, htail, hget⟩ := lookup_written (writesOnly_iff.mp hwrites).1
      obtain ⟨_, hkey, _, hfits⟩ := written_printable hz' htail hget
      have hitems := hnew hkey hfits
      rw [hcontent] at hitems
      have hempty := (writesOnly_old hcut.none hold hitems).mp hwrites
      refine ⟨hprintname.head, fun c hc => (hkey.head c hc).1, hkey.last, hfits, ?_, ?_, ?_⟩
      . intro hnone
        rw [hafter] at hnone
        contradiction
      . exact hended.mpr ⟨t, ht, hname, hline⟩
      intro tail' htail'
      rw [hafter] at htail'
      injection htail' with htail'
      rw [← htail']
      exact hempty
    intro h
    refine ⟨_, hset, ?_⟩
    have hkey := hk.printableKey h.key_head h.key_last
    apply (writesOnly_old hcut.none hold (hnew hkey h.fits)).mpr
    exact h.empty_key (items rest) hafter
  constructor
  . rintro ⟨content', hcontent, hwrites⟩
    exfalso
    rw [hrest] at hcut hlocated
    rw [setValue_last hcut hz hk.terminator hv.terminator hlocated, hline] at hcontent
    injection hcontent with _ hcontent
    obtain ⟨tail, htail, hget⟩ := lookup_written (writesOnly_iff.mp hwrites).1
    rw [← hcontent] at htail
    exact not_written_unended hcut.block hcut.none ht htz hlen hname hk.terminator hv.terminator htail hget
  intro h
  exfalso
  obtain ⟨t', _, _, hline'⟩ := hended.mp h.ended
  rw [hline] at hline'
  rw [hline'] at ht
  simp at ht

end Main

/--
A value is written and nothing else changes if and only if the new lines can be read back, the header found is not
an unended last line, and no entry with an empty key is lost.
-/
theorem etc_set_changes_nothing_else {content pSection pKey pValue : Str} (hz : '\x00' ∉ content)
    (hlines : LinesShorter (ETC_MAXLINE - 1) content) (hs : SyntaxFree pSection) (hk : SyntaxFree pKey)
    (hv : SingleLine pValue)
    : (∃ content', setValueToEtcFile (some content) pSection pKey pValue = (.ok, content')
          ∧ WritesOnly content content' pSection pKey pValue)
      ↔ Settable content pSection pKey pValue := by
  rcases etcLocateSection_cut pSection hz hlines [] with ⟨_, hnone⟩ | ⟨before_, name_line, rest, hcut, hlocated⟩
  . have hset := setValue_new hz hs.terminator hk.terminator hv.terminator hlines hnone
    rw [← set_new hz hlines hs hk hv hnone]
    constructor
    . rintro ⟨content', hcontent, hwrites⟩
      rw [hset] at hcontent
      injection hcontent with _ hcontent
      rwa [hcontent]
    . intro hwrites
      exact ⟨_, hset, hwrites⟩
  . exact set_old hcut hlocated hz hlines hk hv

theorem etc_set_run_together : '\x00' ∉ "[s]".toList ∧ LinesShorter (ETC_MAXLINE - 1) "[s]".toList
        ∧ ¬∃ content', setValueToEtcFile (some "[s]".toList) "s".toList "k".toList "v".toList = (.ok, content')
            ∧ WritesOnly "[s]".toList content' "s".toList "k".toList "v".toList := by
  refine ⟨by decide, ?_, ?_⟩
  . intro t ht _
    have hlen := ht.length_le
    have hthree : "[s]".toList.length = 3 := by decide
    rw [hthree] at hlen
    unfold ETC_MAXLINE
    omega
  rintro ⟨content', hset, hwrites⟩
  have hfile : setValueToEtcFile (some "[s]".toList) "s".toList "k".toList "v".toList =
      (.ok, "[s]k=v\n\n".toList) := by
    decide +kernel
  rw [hfile] at hset
  injection hset with _ hset
  have hlost := hwrites.written 1
  rw [← hset] at hlost
  revert hlost
  decide +kernel

theorem etc_set_run_apart
    : ∃ content', setValueToEtcFile (some "[s]\n".toList) "s".toList "k".toList "v".toList = (.ok, content')
        ∧ WritesOnly "[s]\n".toList content' "s".toList "k".toList "v".toList := by
  have hs : SyntaxFree "s".toList := by
    intro c hc
    have hchar : c = 's' := mem_singleton.mp hc
    rw [hchar]
    decide
  have hk : SyntaxFree "k".toList := by
    intro c hc
    have hchar : c = 'k' := mem_singleton.mp hc
    rw [hchar]
    decide
  have hlines : LinesShorter (ETC_MAXLINE - 1) "[s]\n".toList := by
    intro t ht _
    have hlen := ht.length_le
    have hfour : "[s]\n".toList.length = 4 := by decide
    rw [hfour] at hlen
    unfold ETC_MAXLINE
    omega
  apply (etc_set_changes_nothing_else (by decide) hlines hs hk ⟨by decide, by decide⟩).mpr
  have hitems : items "[s]\n".toList = [.header "s".toList] := by decide +kernel
  constructor
  . intro c hc
    injection hc with hc
    rw [← hc]
    decide
  . intro c hc
    injection hc with hc
    rw [← hc]
    decide
  . intro c hc
    injection hc with hc
    rw [← hc]
    decide
  . left
    decide
  . intro hnone
    rw [hitems] at hnone
    contradiction
  . intro line hline hname
    exact ⟨"[s]".toList, by decide, by decide⟩
  intro rest hrest _
  rw [hitems] at hrest
  injection hrest with hrest
  rw [← hrest]
  decide

end MiniGui.Etc
