import MiniGui.Misc.EtcText

namespace MiniGui.Etc

open List Option

open TextLines

inductive Block : Str → Prop where
  | nil : Block []
  | line {t a : Str} (hn : '\n' ∉ t) (hz : '\x00' ∉ t) (hlen : t.length < ETC_MAXLINE) (h : Block a)
      : Block (t ++ '\n' :: a)

theorem items_append {a : Str} (h : Block a) (r : Str) : items (a ++ r) = items a ++ items r := by
  induction h with
  | nil =>
    rw [items_nil]
    rfl
  | line hn hz hlen _ ih =>
    rw [append_assoc, cons_append, items_line hn hz hlen, items_line hn hz hlen, ih, append_assoc]

theorem not_mem_append {a r : Str} {c : Char} : c ∉ a ++ r ↔ c ∉ a ∧ c ∉ r := by
  rw [mem_append, not_or]

theorem items_append_newline {fp : Str} (hz : '\x00' ∉ fp) (hlines : LinesShorter ETC_MAXLINE fp) (r : Str)
    : items (fp ++ '\n' :: r) = items fp ++ items r := by
  induction hn : fp.length using Nat.strong_induction_on generalizing fp with
  | _ n ih =>
    rcases exists_line fp with hone | ⟨t, s, ht, rfl⟩
    . have hlen := hlines fp infix_rfl hone
      rw [items_line hone hz hlen]
      congr 1
      exact (parsed_last rfl hone hz hlen).symm
    rw [not_mem_append, mem_cons, not_or] at hz
    rw [length_append, length_cons] at hn
    have hlen := hlines t (prefix_append _ _).isInfix ht
    have hrest := @ih s.length (by omega) s hz.2.2 (hlines.within ⟨t ++ ['\n'], [], by simp⟩) rfl
    rw [append_assoc, cons_append, items_line ht hz.1 hlen, items_line ht hz.1 hlen, hrest,
      append_assoc]

theorem etcFileCopy_eq {b : LineBuffer} {sf : Str} (hz : '\x00' ∉ sf) : etcFileCopy b sf = sf := by
  induction hn : sf.length using Nat.strong_induction_on generalizing sf with
  | _ n ih =>
    unfold etcFileCopy at ih ⊢
    rcases hread : fgets b sf with _ | ⟨line, rest⟩
    . rw [fgets_eq_none.mp hread, chunks_nil]
      rfl
    have hlt := fgets_lt hread
    have happend := fgets_append hread
    rw [← happend, not_mem_append] at hz
    rw [chunks_of_fgets hread, flatMap_cons, cString_eq_self hz.1, @ih rest.length (by omega) rest hz.2 rfl,
      happend]

theorem fgets_line {t : Str} (ht : '\n' ∉ t) (hlen : t.length < ETC_MAXLINE - 1) (r : Str)
    : fgets szBuff (t ++ '\n' :: r) = some (t ++ ['\n'], r) := by
  have hread := @readLine_append (szBuff.size - 1) t ht (Nat.le_of_lt hlen) ('\n' :: r)
  obtain ⟨m, hm⟩ : ∃ m, szBuff.size - 1 - t.length = m + 1 := by
    refine ⟨szBuff.size - 1 - t.length - 1, ?_⟩
    unfold szBuff
    dsimp only
    omega
  rw [hm, readLine, if_pos rfl] at hread
  rw [fgets, if_neg (by simp), hread]
  congr
  simp

theorem fgets_last {t : Str} (ht : '\n' ∉ t) (hlen : t.length < ETC_MAXLINE - 1) (hne : t ≠ [])
    : fgets szBuff t = some (t, []) := by
  have hread := @readLine_append (szBuff.size - 1) t ht (Nat.le_of_lt hlen) []
  have hnil : readLine (szBuff.size - 1 - t.length) [] = [] := by
    cases szBuff.size - 1 - t.length with
    | zero => rfl
    | succ n => rfl
  rw [hnil, append_nil] at hread
  rw [fgets, if_neg hne, hread, drop_length]

structure Cut (pSection content before name_line rest : Str) : Prop where
  eq : content = before ++ name_line ++ rest
  block : Block before
  none : ∀ item ∈ items before, item ≠ .header pSection
  line : ∃ t, '\n' ∉ t ∧ getSectionName t = some pSection
    ∧ (name_line = t ++ ['\n'] ∨ name_line = t ∧ rest = [])

theorem classify_ne_header {t pSection : Str} (h : getSectionName t ≠ some pSection)
    : ∀ item ∈ (classify t).toList, item ≠ .header pSection := by
  intro item hitem heq
  rw [mem_toList, heq] at hitem
  exact h (classify_eq_header hitem)

theorem etcLocateSection_cut (pSection : Str) {content : Str} (hz : '\x00' ∉ content)
    (hlines : LinesShorter (ETC_MAXLINE - 1) content) (bak_fp : Str)
    : (etcLocateSection pSection content bak_fp =
          { status := .sectionNotFound, pValue := [], fp := [], bak_fp := bak_fp ++ content }
        ∧ ∀ item ∈ items content, item ≠ .header pSection)
      ∨ ∃ before name_line rest, Cut pSection content before name_line rest
          ∧ etcLocateSection pSection content bak_fp =
            { status := .ok, pValue := [], fp := rest, bak_fp := bak_fp ++ before ++ name_line } := by
  induction hn : content.length using Nat.strong_induction_on generalizing content bak_fp with
  | _ n ih =>
    rcases exists_line content with hone | ⟨t, s, ht, rfl⟩
    . have hlen := hlines content infix_rfl hone
      rcases eq_or_ne content [] with rfl | hne
      . left
        rw [etcLocateSection, items_nil]
        exact ⟨by simp [fgets], by simp⟩
      have hread := fgets_last hone hlen hne
      have hitems : items content = (classify content).toList := parsed_last rfl hone hz (by
        unfold szBuff
        dsimp only
        omega)
      rw [etcLocateSection]
      split
      next hnone =>
        rw [hread] at hnone
        contradiction
      next line rest hsome =>
        rw [hread] at hsome
        injection hsome with hsome
        injection hsome with hline hrest
        rw [← hline, ← hrest, cString_eq_self hz]
        split
        next hname =>
          right
          refine ⟨[], content, [], ⟨by simp, .nil, ?_, content, hone, hname, .inr ⟨rfl, rfl⟩⟩, by simp⟩
          rw [items_nil]
          simp
        next hname =>
          left
          rw [hitems]
          refine ⟨?_, classify_ne_header hname⟩
          rw [etcLocateSection]
          simp [fgets]
    rw [not_mem_append, mem_cons, not_or] at hz
    have hlen := hlines t (prefix_append _ _).isInfix ht
    have hrest : LinesShorter (ETC_MAXLINE - 1) s := hlines.within ⟨t ++ ['\n'], [], by simp⟩
    have hread := fgets_line ht hlen s
    have htz : '\x00' ∉ t ++ ['\n'] := by
      rw [not_mem_append]
      exact ⟨hz.1, by decide⟩
    rw [length_append, length_cons] at hn
    have hitems := items_line ht hz.1 (by omega) s
    rw [etcLocateSection]
    split
    next hnone =>
      rw [hread] at hnone
      contradiction
    next line rest hsome =>
      rw [hread] at hsome
      injection hsome with hsome
      injection hsome with hline hs
      rw [← hline, ← hs, cString_eq_self htz, getSectionName_concat]
      split
      next hname =>
        right
        refine ⟨[], t ++ ['\n'], s, ⟨by simp, .nil, ?_, t, ht, hname, .inl rfl⟩, by simp⟩
        rw [items_nil]
        simp
      next hname =>
        rcases ih s.length (by omega) hz.2.2 hrest (bak_fp ++ (t ++ ['\n'])) rfl with h | h
        . left
          rw [h.1, hitems]
          refine ⟨by simp, ?_⟩
          intro item hitem
          rw [mem_append] at hitem
          rcases hitem with hitem | hitem
          . exact classify_ne_header hname item hitem
          . exact h.2 item hitem
        right
        obtain ⟨before, name_line, rest, hcut, hlocated⟩ := h
        refine ⟨t ++ '\n' :: before, name_line, rest, ⟨?_, ?_, ?_, hcut.line⟩, ?_⟩
        . rw [hcut.eq]
          simp
        . exact .line ht hz.1 (by omega) hcut.block
        . rw [items_line ht hz.1 (by omega)]
          intro item hitem
          rw [mem_append] at hitem
          rcases hitem with hitem | hitem
          . exact classify_ne_header hname item hitem
          . exact hcut.none item hitem
        . rw [hlocated]
          simp

def before (pKey : Str) (keys : List (Str × Str)) : List (Str × Str) :=
  keys.takeWhile (·.1 ≠ pKey)

def behind (pKey : Str) (keys : List (Str × Str)) : List (Str × Str) :=
  (keys.dropWhile (·.1 ≠ pKey)).drop 1

def kept (keys : List (Str × Str)) : List (Str × Str) :=
  keys.filter (·.1 ≠ [])

theorem before_cons_of_ne {pKey key : Str} (h : key ≠ pKey) (value : Str) (keys : List (Str × Str))
    : before pKey ((key, value) :: keys) = (key, value) :: before pKey keys := by
  apply takeWhile_cons_of_pos
  simp [h]

theorem behind_cons_of_ne {pKey key : Str} (h : key ≠ pKey) (value : Str) (keys : List (Str × Str))
    : behind pKey ((key, value) :: keys) = behind pKey keys := by
  unfold behind
  rw [dropWhile_cons_of_pos]
  simp [h]

theorem printPairs_kept_cons (key value : Str) (keys : List (Str × Str))
    : printPairs (kept ((key, value) :: keys)) =
      (if key ≠ [] then printPair key value else []) ++ printPairs (kept keys) := by
  unfold kept printPairs
  rw [filter_cons]
  by_cases h : key = []
  . simp [h]
  . simp [h]

theorem etcLocateKeyValue_cut (pKey : Str) (iLen : Nat) (fp bak_fp : Str) (hz : '\x00' ∉ fp)
    : (etcLocateKeyValue pKey iLen fp bak_fp).bak_fp = bak_fp ++ printPairs (kept (before pKey (entries (items fp))))
      ∧ items (etcLocateKeyValue pKey iLen fp bak_fp).fp =
        pairs (behind pKey (entries (items fp))) ++ dropEntries (items fp)
      ∧ '\x00' ∉ (etcLocateKeyValue pKey iLen fp bak_fp).fp := by
  fun_induction etcLocateKeyValue pKey iLen fp bak_fp with
  | case1 fp bak_fp h =>
    rw [items_of_eof h]
    exact ⟨by simp [entries, before, kept, printPairs], by simp [entries, behind, pairs, dropEntries], hz⟩
  | case2 fp bak_fp line rest h hkey ih =>
    rw [items_of_fgets h, classify_of_nothing hkey]
    exact ih (not_mem_rest h hz)
  | case3 fp bak_fp line rest h hkey =>
    obtain ⟨name, _, hclass⟩ := classify_of_header hkey
    rw [seekBack_eq h hz, items_of_fgets h, hclass]
    exact ⟨by simp [entries, before, kept, printPairs], by simp [entries, behind, pairs, dropEntries], hz⟩
  | case4 fp bak_fp line rest h value hkey =>
    rw [items_of_fgets h, classify_of_pair hkey]
    refine ⟨?_, ?_, not_mem_rest h hz⟩
    . simp [entries, before, kept, printPairs]
    rw [toList_some, singleton_append, entries, dropEntries]
    have hbehind : behind pKey ((pKey, value) :: entries (items rest)) = entries (items rest) := by
      simp [behind]
    rw [hbehind, pairs_append_dropEntries]
  | case5 fp bak_fp line rest h current value hkey hne ih =>
    have hrest := ih (not_mem_rest h hz)
    simp only [dite_eq_ite] at hrest
    rw [items_of_fgets h, classify_of_pair hkey]
    rw [toList_some, singleton_append, entries, dropEntries, before_cons_of_ne hne,
      behind_cons_of_ne hne, printPairs_kept_cons]
    refine ⟨?_, hrest.2⟩
    rw [hrest.1]
    split
    . rw [append_assoc]
    . rw [nil_append]

section Rewritten

variable {content pSection pKey pValue : Str}

theorem not_mem_printPair (hkey : '\x00' ∉ pKey) (hvalue : '\x00' ∉ pValue)
    : '\x00' ∉ printPair pKey pValue := by
  unfold printPair
  simp [hkey, hvalue]

theorem not_mem_printHeader (h : '\x00' ∉ pSection) : '\x00' ∉ printHeader pSection := by
  unfold printHeader
  simp [h]

theorem printable_of_mem {fp : Str} {item : Item} (hz : '\x00' ∉ fp) (h : item ∈ items fp)
    : match item with
      | .header name => PrintableName name
      | .entry key value => PrintableKey key ∧ SingleLine value := by
  obtain ⟨t, ht, _, _, hclass⟩ := mem_items h
  have htz : '\x00' ∉ t := fun hmem => hz (ht.subset hmem)
  cases item with
  | header name => exact getSectionName_printable htz (classify_eq_header hclass)
  | entry key value => exact getKeyValue_printable htz (classify_eq_entry hclass)

theorem mem_entries {l : List Item} {entry : Str × Str} (h : entry ∈ entries l)
    : Item.entry entry.1 entry.2 ∈ l := by
  rw [← pairs_append_dropEntries l, mem_append]
  left
  exact List.mem_map_of_mem h

theorem not_mem_printPairs {keys : List (Str × Str)}
    (hkeys : ∀ entry ∈ keys, PrintableKey entry.1 ∧ SingleLine entry.2)
    : '\x00' ∉ printPairs keys := by
  intro hmem
  obtain ⟨entry, hentry, hmem⟩ := mem_flatMap.mp hmem
  have hprint := hkeys entry hentry
  apply not_mem_printPair _ hprint.2.terminator hmem
  intro hkey
  exact (hprint.1.chars _ hkey).2.2.2.2 rfl

theorem mem_kept_before {keys : List (Str × Str)} {entry : Str × Str} (h : entry ∈ kept (before pKey keys))
    : entry ∈ keys :=
  (List.takeWhile_prefix _).subset (mem_of_mem_filter h)

theorem setValue_new (hz : '\x00' ∉ content) (hs : '\x00' ∉ pSection) (hk : '\x00' ∉ pKey) (hv : '\x00' ∉ pValue)
    (hlines : LinesShorter (ETC_MAXLINE - 1) content) (hnone : ∀ item ∈ items content, item ≠ .header pSection)
    : setValueToEtcFile (some content) pSection pKey pValue =
      (.ok, content ++ '\n' :: (printHeader pSection ++ printPair pKey pValue)) := by
  rcases etcLocateSection_cut pSection hz hlines [] with ⟨h, _⟩ | ⟨before, name_line, rest, hcut, _⟩
  . have hheader := not_mem_printHeader hs
    have hpair := not_mem_printPair hk hv
    have hempty : etcFileCopy copyBuff [] = [] := etcFileCopy_eq not_mem_nil
    unfold setValueToEtcFile etcCopyAndLocate
    dsimp only
    rw [h]
    dsimp only
    rw [if_pos (by decide), hempty, etcFileCopy_eq]
    . simp
    . simp [hz, hheader, hpair]
  exfalso
  obtain ⟨t, ht, hname, hline⟩ := hcut.line
  have hmem : Item.header pSection ∈ items content := by
    have hlen : t.length < ETC_MAXLINE := by
      apply Nat.lt_of_lt_of_le (hlines t _ ht) (by decide)
      rw [hcut.eq]
      rcases hline with hline | ⟨hline, hrest⟩
      . rw [hline]
        exact ⟨before, '\n' :: rest, by simp⟩
      . rw [hline, hrest]
        exact ⟨before, [], by simp⟩
    have htz : '\x00' ∉ t := by
      intro hmem
      apply hz
      rw [hcut.eq]
      rcases hline with hline | ⟨hline, _⟩
      . rw [hline]
        simp [hmem]
      . rw [hline]
        simp [hmem]
    rw [hcut.eq, append_assoc, items_append hcut.block, mem_append]
    right
    rcases hline with hline | ⟨hline, hrest⟩
    . rw [hline, append_assoc, singleton_append, items_line ht htz hlen, classify_of_name hname]
      simp
    rw [hline, hrest, append_nil]
    have hone : items t = (classify t).toList := parsed_last rfl ht htz hlen
    rw [hone, classify_of_name hname]
    simp
  exact hnone _ hmem rfl

theorem setValue_old {before_ name_line rest : Str} (hcut : Cut pSection content before_ name_line rest)
    (hz : '\x00' ∉ content) (hk : '\x00' ∉ pKey) (hv : '\x00' ∉ pValue)
    (hlocated : etcLocateSection pSection content [] =
      { status := .ok, pValue := [], fp := rest, bak_fp := before_ ++ name_line })
    : ∃ left, '\x00' ∉ left
        ∧ items left = pairs (behind pKey (entries (items rest))) ++ dropEntries (items rest)
        ∧ setValueToEtcFile (some content) pSection pKey pValue =
          (.ok, before_ ++ name_line ++ printPairs (kept (before pKey (entries (items rest))))
            ++ printPair pKey pValue ++ left) := by
  rw [hcut.eq, not_mem_append, not_mem_append] at hz
  have hkey := etcLocateKeyValue_cut pKey 0 rest (before_ ++ name_line) hz.2
  have hprinted : '\x00' ∉ printPairs (kept (before pKey (entries (items rest)))) := by
    apply not_mem_printPairs
    intro entry hentry
    exact printable_of_mem hz.2 (mem_entries (mem_kept_before hentry))
  have hpair := not_mem_printPair hk hv
  unfold setValueToEtcFile etcCopyAndLocate
  dsimp only
  rw [hlocated]
  dsimp only
  rw [if_neg (by decide)]
  by_cases hstatus : (etcLocateKeyValue pKey 0 rest (before_ ++ name_line)).status = .ok
  . refine ⟨(etcLocateKeyValue pKey 0 rest (before_ ++ name_line)).fp, hkey.2.2, hkey.2.1, ?_⟩
    rw [if_neg (by rw [hstatus]; decide), hstatus]
    rw [hkey.1, etcFileCopy_eq hkey.2.2, etcFileCopy_eq]
    simp [hz, hprinted, hpair, hkey.2.2]
  refine ⟨'\n' :: (etcLocateKeyValue pKey 0 rest (before_ ++ name_line)).fp, ?_, ?_, ?_⟩
  . simp [hkey.2.2]
  . rw [items_newline, hkey.2.1]
  rw [if_pos hstatus]
  rw [hkey.1, etcFileCopy_eq hkey.2.2, etcFileCopy_eq]
  . simp
  . simp [hz, hprinted, hpair, hkey.2.2]

end Rewritten

end MiniGui.Etc
