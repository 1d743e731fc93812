import MiniGui.Misc.EtcLookup
import MiniGui.Misc.EtcRevise
import MiniGui.Misc.EtcSave

namespace MiniGui.Etc

open List Option

open TextLines

structure Saves (content content' : Str) (sect : Section) : Prop where
  held : (etcReadSections content').find? (isNamed sect.name) = some (some sect)
  others : (etcReadSections content').eraseP (isNamed sect.name) = (etcReadSections content).eraseP (isNamed sect.name)

def Removes (content content' pSection : Str) : Prop :=
  etcReadSections content' = (etcReadSections content).eraseP (isNamed pSection)

structure Savable (content : Str) (sect : Section) : Prop where
  name_head : NoLeadingBlank sect.name
  keys : ∀ entry ∈ sect.keys, NoLeadingBlank entry.1 ∧ NoTrailingBlank entry.1 ∧ '\n' ∉ entry.2
    ∧ (printPair entry.1 entry.2).length ≤ ETC_MAXLINE
  ended : afterHeader sect.name (items content) = none → ∀ line, (content.splitOn '\n').getLast? = some line
    → (∀ c ∈ line, isBlank c = true) ∧ line.length + (printHeader sect.name).length ≤ ETC_MAXLINE

section Lists

variable {l more : List Item} {pSection : Str}

theorem sections_append (hmore : entries more = []) : sections (l ++ more) = sections l ++ sections more := by
  induction l with
  | nil => rfl
  | cons item l ih =>
    cases item with
    | entry key value => exact ih
    | header name => rw [cons_append, sections, sections, ih, entries_append hmore, cons_append]

theorem header_of_mem_sections {sect : Section} (h : sect ∈ sections l) : .header sect.name ∈ l := by
  induction l with
  | nil => contradiction
  | cons item l ih =>
    cases item with
    | entry key value => exact mem_cons_of_mem _ (ih h)
    | header name =>
      rw [sections, mem_cons] at h
      rcases h with rfl | h
      . exact mem_cons_self
      . exact mem_cons_of_mem _ (ih h)

theorem not_isNamed_of_none (h : ∀ item ∈ l, item ≠ .header pSection)
    : ∀ psect ∈ (sections l).map some, ¬isNamed pSection psect = true := by
  intro psect hmem hnamed
  rw [List.mem_map] at hmem
  rcases hmem with ⟨sect, hsect, rfl⟩
  have hname : sect.name = pSection := by simpa [isNamed] using hnamed
  apply h _ (header_of_mem_sections hsect)
  rw [hname]

theorem eraseP_of_none (h : ∀ item ∈ l, item ≠ .header pSection)
    : ((sections l).map some).eraseP (isNamed pSection) = (sections l).map some :=
  eraseP_of_forall_not (not_isNamed_of_none h)

theorem eraseP_sections (h : ∀ item ∈ l, item ≠ .header pSection) (keys : List (Str × Str))
    (hmore : entries more = [])
    : ((sections (l ++ .header pSection :: (pairs keys ++ more))).map some).eraseP (isNamed pSection)
      = (sections (l ++ more)).map some := by
  have hheader : entries (.header pSection :: (pairs keys ++ more)) = [] := rfl
  rw [sections_append hheader, sections_append hmore, map_append, map_append,
    eraseP_append_right _ (not_isNamed_of_none h), sections, sections_pairs, map_cons,
    eraseP_cons_of_pos (by simp [isNamed])]

def spilled (keys : List (Str × Str)) : List (Str × Str) :=
  keys.flatMap fun entry => entry :: spill entry.1 entry.2

theorem items_printPairs_spilled {keys : List (Str × Str)}
    (hkeys : ∀ entry ∈ keys, PrintableKey entry.1 ∧ SingleLine entry.2)
    (hfits : ∀ entry ∈ keys, PairFits entry.1 entry.2) (r : Str)
    : items (printPairs keys ++ r) = pairs (spilled keys) ++ items r := by
  unfold printPairs spilled
  induction keys with
  | nil => rfl
  | cons entry keys ih =>
    have hentry := hkeys entry mem_cons_self
    have hrest := ih (fun e he => hkeys e (mem_cons_of_mem entry he))
      (fun e he => hfits e (mem_cons_of_mem entry he))
    rw [flatMap_cons, append_assoc, items_printPair_spill hentry.1 hentry.2 (hfits entry mem_cons_self),
      hrest, flatMap_cons]
    simp [pairs]

theorem spilled_length (keys : List (Str × Str)) : keys.length ≤ (spilled keys).length := by
  unfold spilled
  induction keys with
  | nil => exact Nat.le_refl _
  | cons entry keys ih =>
    rw [flatMap_cons, length_append, length_cons, length_cons]
    omega

theorem spilled_eq_iff (keys : List (Str × Str))
    : spilled keys = keys ↔ ∀ entry ∈ keys, (printPair entry.1 entry.2).length ≤ ETC_MAXLINE := by
  induction keys with
  | nil => simp [spilled]
  | cons entry keys ih =>
    have hcons : spilled (entry :: keys) = entry :: (spill entry.1 entry.2 ++ spilled keys) := rfl
    rw [hcons, forall_mem_cons, ← ih, ← spill_eq_nil]
    constructor
    . intro h
      injection h with _ h
      have hlength := congrArg List.length h
      rw [length_append] at hlength
      have hle := spilled_length keys
      have hnil : spill entry.1 entry.2 = [] := eq_nil_of_length_eq_zero (by omega)
      rw [hnil, nil_append] at h
      exact ⟨hnil, h⟩
    . rintro ⟨hnil, hkeys⟩
      rw [hnil, hkeys, nil_append]

end Lists

section Merged

variable {t r name : Str}

theorem getSectionName_blank (h : ∀ c ∈ t, isBlank c = true) (s : Str)
    : getSectionName (t ++ s) = getSectionName s := by
  have hskip : skipBlanks (t ++ s) = skipBlanks s := dropWhile_append_of_pos h
  unfold getSectionName
  rw [hskip]

theorem skipBlanks_append_of_not (h : ¬∀ c ∈ t, isBlank c = true) (s : Str)
    : skipBlanks (t ++ s) = skipBlanks t ++ s ∧ skipBlanks t ≠ [] := by
  have hne : skipBlanks t ≠ [] := by
    intro hnil
    exact h (dropWhile_eq_nil_iff.mp hnil)
  refine ⟨?_, hne⟩
  unfold skipBlanks at hne ⊢
  rw [dropWhile_append]
  rw [if_neg]
  simpa using hne

theorem sectionName_append (u : Str)
    : sectionName (u ++ '[' :: r) = sectionName u ∨ '[' ∈ sectionName (u ++ '[' :: r) := by
  unfold sectionName
  rw [takeWhile_append]
  split
  . right
    rw [takeWhile_cons_of_pos (by decide)]
    simp
  . left
    rfl

theorem getSectionName_merged (h : getSectionName (t ++ '[' :: r) = some name)
    : (∀ c ∈ t, isBlank c = true) ∨ getSectionName t = some name ∨ '[' ∈ name := by
  by_cases hblank : ∀ c ∈ t, isBlank c = true
  . exact .inl hblank
  right
  obtain ⟨hskip, hne⟩ := skipBlanks_append_of_not hblank ('[' :: r)
  obtain ⟨c, s, hcs⟩ := exists_cons_of_ne_nil hne
  unfold getSectionName at h ⊢
  rw [hskip, hcs] at h
  rw [hcs]
  rw [cons_append] at h
  by_cases hbracket : c = '['
  . subst hbracket
    injection h with h
    rw [← h]
    by_cases hs : ∀ d ∈ s, isBlank d = true
    . right
      have hrest : skipBlanks (s ++ '[' :: r) = '[' :: r := by
        have hpos : skipBlanks (s ++ '[' :: r) = skipBlanks ('[' :: r) := dropWhile_append_of_pos hs
        rw [hpos]
        rfl
      rw [hrest]
      unfold sectionName
      rw [takeWhile_cons_of_pos (by decide)]
      exact mem_cons_self
    rw [(skipBlanks_append_of_not hs _).1]
    rcases @sectionName_append r (skipBlanks s) with hsame | hin
    . left
      exact (congrArg some hsame).symm
    . exact .inr hin
  split at h
  . contradiction
  . contradiction
  next heq =>
    injection heq with hc _
    exact absurd hc hbracket
  . contradiction

theorem classify_tail {s : Str} (hname : SyntaxFree name) (hs : s <:+ name ++ [']']) (hne : s ≠ [])
    : ∃ key value, classify s = some (.entry key value) := by
  have hlast : ']' ∈ s := by
    obtain ⟨p, hp⟩ := hs
    have hsplit := congrArg List.getLast? hp
    rw [getLast?_append_of_ne_nil _ hne, getLast?_concat] at hsplit
    exact mem_of_getLast? hsplit
  have hnotblank : ¬∀ c ∈ s, isBlank c = true := by
    intro hall
    have hbracket := hall _ hlast
    revert hbracket
    decide
  have hskip := (skipBlanks_append_of_not hnotblank []).2
  obtain ⟨c, u, hcu⟩ := exists_cons_of_ne_nil hskip
  have hmem : c ∈ s := by
    apply mem_skipBlanks
    rw [hcu]
    exact mem_cons_self
  have hc : c ≠ ';' ∧ c ≠ '#' ∧ c ≠ '[' ∧ c ≠ '\n' := by
    have hin := hs.subset hmem
    rw [mem_append, mem_singleton] at hin
    rcases hin with hin | rfl
    . have hfree := hname c hin
      simp at hfree
      simp [hfree]
    . decide
  have hpair : ∃ key value, getKeyValue s = .pair key value := by
    unfold getKeyValue
    rw [hcu]
    split
    next heq =>
      injection heq with heq _
      exact absurd heq hc.1
    next heq =>
      injection heq with heq _
      exact absurd heq hc.2.1
    next heq =>
      injection heq with heq _
      exact absurd heq hc.2.2.1
    next heq =>
      injection heq with heq _
      exact absurd heq hc.2.2.2
    next heq => contradiction
    next => exact ⟨_, _, rfl⟩
  obtain ⟨key, value, hpair⟩ := hpair
  exact ⟨key, value, classify_of_pair hpair⟩

end Merged

section Held

variable {content content' pSection : Str} {sect : Section}

theorem held_iff (hz : '\x00' ∉ content')
    : (etcReadSections content').find? (isNamed sect.name) = some (some sect)
      ↔ ∃ tail, afterHeader sect.name (items content') = some tail ∧ entries tail = sect.keys := by
  rw [etcReadSections_eq _ hz, find?_sections]
  cases afterHeader sect.name (items content') with
  | none => simp
  | some tail =>
    simp only [map_some, Option.some.injEq, exists_eq_left']
    constructor
    . intro h
      rw [← h]
    . intro h
      rw [h]

theorem printable_of_held (hz : '\x00' ∉ content') {tail : List Item}
    (hafter : afterHeader sect.name (items content') = some tail) (hkeys : entries tail = sect.keys)
    : sect.Printable ∧ (∀ entry ∈ sect.keys, PairFits entry.1 entry.2) ∧ sect.name.length < ETC_MAXLINE - 1 := by
  have hsuffix := afterHeader_suffix hafter
  have hheader : Item.header sect.name ∈ items content' := hsuffix.subset mem_cons_self
  have hmem : ∀ entry ∈ sect.keys, Item.entry entry.1 entry.2 ∈ items content' := by
    intro entry hentry
    apply hsuffix.subset
    apply mem_cons_of_mem
    rw [← hkeys] at hentry
    exact mem_entries hentry
  refine ⟨⟨printable_of_mem hz hheader, fun entry hentry => printable_of_mem hz (hmem entry hentry)⟩, ?_, ?_⟩
  . intro entry hentry
    obtain ⟨t, _, _, hlen, hclass⟩ := mem_items (hmem entry hentry)
    unfold PairFits printPair
    rcases getKeyValue_length (classify_eq_entry hclass) with hsize | ⟨hnil, hsize, _⟩
    . left
      simp
      omega
    . rw [hnil]
      simp
      omega
  . obtain ⟨t, _, _, hlen, hclass⟩ := mem_items hheader
    have hsize := getSectionName_length (classify_eq_header hclass)
    omega

theorem items_etcWriteSection (hprint : sect.Printable) (hfits : ∀ entry ∈ sect.keys, PairFits entry.1 entry.2)
    (hheader : (printHeader sect.name).length ≤ ETC_MAXLINE) (r : Str)
    : items (etcWriteSection (some sect) ++ r) = .header sect.name :: (pairs (spilled sect.keys) ++ items r) := by
  have hwrite : etcWriteSection (some sect) = printHeader sect.name ++ printPairs sect.keys ++ ['\n'] := rfl
  rw [hwrite, append_assoc, append_assoc, items_printHeader hprint.name hheader,
    items_printPairs_spilled hprint.keys hfits, singleton_append, items_newline]

theorem printable_iff (hname : SyntaxFree sect.name)
    (hfree : ∀ entry ∈ sect.keys, SyntaxFree entry.1 ∧ '\x00' ∉ entry.2)
    : sect.Printable ∧ (∀ entry ∈ sect.keys, (printPair entry.1 entry.2).length ≤ ETC_MAXLINE)
      ↔ NoLeadingBlank sect.name ∧ ∀ entry ∈ sect.keys, NoLeadingBlank entry.1 ∧ NoTrailingBlank entry.1
        ∧ '\n' ∉ entry.2 ∧ (printPair entry.1 entry.2).length ≤ ETC_MAXLINE := by
  constructor
  . rintro ⟨hprint, hfits⟩
    refine ⟨hprint.name.head, ?_⟩
    intro entry hentry
    have hkey := hprint.keys entry hentry
    exact ⟨fun c hc => (hkey.1.head c hc).1, hkey.1.last, hkey.2.newline, hfits entry hentry⟩
  rintro ⟨hhead, hkeys⟩
  refine ⟨⟨hname.printableName hhead, ?_⟩, fun entry hentry => (hkeys entry hentry).2.2.2⟩
  intro entry hentry
  have hkey := hkeys entry hentry
  exact ⟨(hfree entry hentry).1.printableKey hkey.1 hkey.2.1, ⟨hkey.2.2.1, (hfree entry hentry).2⟩⟩

end Held

section Old

variable {content before name_line rest : Str} {sect : Section}

theorem items_cut (hcut : Cut sect.name content before name_line rest) (hz : '\x00' ∉ content)
    (hlines : LinesShorter (ETC_MAXLINE - 1) content)
    : items content = items before ++ .header sect.name :: items rest
      ∧ (printHeader sect.name).length ≤ ETC_MAXLINE := by
  obtain ⟨t, ht, hname, hline⟩ := hcut.line
  have htin : t <:+: content := by
    rw [hcut.eq]
    rcases hline with hline | ⟨hline, hrest⟩
    . rw [hline]
      exact ⟨before, '\n' :: rest, by simp⟩
    . rw [hline, hrest]
      exact ⟨before, [], by simp⟩
  have hlen := hlines t htin ht
  have htz : '\x00' ∉ t := fun hmem => hz (htin.subset hmem)
  constructor
  . rw [hcut.eq, append_assoc, items_append hcut.block]
    congr 1
    rcases hline with hline | ⟨hline, hrest⟩
    . rw [hline, append_assoc, singleton_append, items_line ht htz (by omega), classify_of_name hname]
      rfl
    . have hone : items t = (classify t).toList := parsed_last rfl ht htz (Nat.lt_of_lt_of_le hlen (by decide))
      rw [hline, hrest, append_nil, hone, classify_of_name hname, items_nil]
      rfl
  . have hsize := getSectionName_length hname
    unfold printHeader
    simp
    omega

theorem saves_old (hcut : Cut sect.name content before name_line rest) (hz : '\x00' ∉ content)
    (hlines : LinesShorter (ETC_MAXLINE - 1) content) (hname : SyntaxFree sect.name)
    (hfree : ∀ entry ∈ sect.keys, SyntaxFree entry.1 ∧ '\x00' ∉ entry.2)
    : Saves content (before ++ etcWriteSection (some sect) ++ etcFindNextSection rest) sect
      ↔ Savable content sect := by
  obtain ⟨hitems, hheader⟩ := items_cut hcut hz hlines
  have hafter : afterHeader sect.name (items content) = some (items rest) := by
    rw [hitems, afterHeader_self hcut.none]
  have hzcut := hz
  rw [hcut.eq, not_mem_append, not_mem_append] at hzcut
  obtain ⟨hnext, hnextz⟩ := etcFindNextSection_spec rest hzcut.2
  have hmore : entries (items (etcFindNextSection rest)) = [] := by
    rw [hnext, entries_dropEntries]
  have hz' : '\x00' ∉ before ++ etcWriteSection (some sect) ++ etcFindNextSection rest := by
    rw [not_mem_append, not_mem_append]
    exact ⟨⟨hzcut.1.1, not_mem_etcWriteSection hname.terminator
      (fun entry hentry => ⟨(hfree entry hentry).1.terminator, (hfree entry hentry).2⟩)⟩, hnextz⟩
  have hnew : sect.Printable → (∀ entry ∈ sect.keys, PairFits entry.1 entry.2)
      → items (before ++ etcWriteSection (some sect) ++ etcFindNextSection rest)
        = items before ++ .header sect.name :: (pairs (spilled sect.keys) ++ items (etcFindNextSection rest)) := by
    intro hprint hfits
    rw [append_assoc, items_append hcut.block, items_etcWriteSection hprint hfits hheader]
  constructor
  . intro hsaves
    obtain ⟨tail, htail, hkeys⟩ := (held_iff hz').mp hsaves.held
    obtain ⟨hprint, hfits, _⟩ := printable_of_held hz' htail hkeys
    rw [hnew hprint hfits, afterHeader_self hcut.none] at htail
    injection htail with htail
    rw [← htail, entries_pairs_append _ hmore] at hkeys
    obtain ⟨hhead, hcond⟩ := (printable_iff hname hfree).mp ⟨hprint, (spilled_eq_iff _).mp hkeys⟩
    refine ⟨hhead, hcond, ?_⟩
    intro hnone
    rw [hafter] at hnone
    contradiction
  intro hsavable
  obtain ⟨hprint, hfits⟩ := (printable_iff hname hfree).mpr ⟨hsavable.name_head, hsavable.keys⟩
  have hnew := hnew hprint (fun entry hentry => Or.inl (hfits entry hentry))
  rw [(spilled_eq_iff _).mpr hfits] at hnew
  constructor
  . rw [held_iff hz', hnew, afterHeader_self hcut.none]
    exact ⟨_, rfl, entries_pairs_append _ hmore⟩
  . rw [etcReadSections_eq _ hz', etcReadSections_eq _ hz, hnew, hitems, eraseP_sections hcut.none _ hmore,
      ← pairs_append_dropEntries (items rest), ← hnext, eraseP_sections hcut.none _ hmore]

theorem removes_old (hcut : Cut sect.name content before name_line rest) (hz : '\x00' ∉ content)
    (hlines : LinesShorter (ETC_MAXLINE - 1) content)
    : Removes content (before ++ etcFindNextSection rest) sect.name := by
  obtain ⟨hitems, _⟩ := items_cut hcut hz hlines
  have hzcut := hz
  rw [hcut.eq, not_mem_append, not_mem_append] at hzcut
  obtain ⟨hnext, hnextz⟩ := etcFindNextSection_spec rest hzcut.2
  have hmore : entries (items (etcFindNextSection rest)) = [] := by
    rw [hnext, entries_dropEntries]
  have hz' : '\x00' ∉ before ++ etcFindNextSection rest := by
    rw [not_mem_append]
    exact ⟨hzcut.1.1, hnextz⟩
  rw [Removes, etcReadSections_eq _ hz', etcReadSections_eq _ hz, hitems, items_append hcut.block,
    ← pairs_append_dropEntries (items rest), ← hnext, eraseP_sections hcut.none _ hmore]

end Old

section New

variable {content a t : Str} {sect : Section}

theorem exists_last_line (hz : '\x00' ∉ content) (hlines : LinesShorter (ETC_MAXLINE - 1) content)
    : ∃ a t, content = a ++ t ∧ Block a ∧ '\n' ∉ t := by
  induction hn : content.length using Nat.strong_induction_on generalizing content with
  | _ n ih =>
    rcases exists_line content with hone | ⟨t, s, ht, rfl⟩
    . exact ⟨[], content, rfl, .nil, hone⟩
    rw [not_mem_append, mem_cons, not_or] at hz
    rw [length_append, length_cons] at hn
    have hlen := hlines t (prefix_append _ _).isInfix ht
    obtain ⟨b, u, rfl, hblock, hu⟩ :=
      ih s.length (by omega) hz.2.2 (hlines.within ⟨t ++ ['\n'], [], by simp⟩) rfl
    exact ⟨t ++ '\n' :: b, u, by simp, .line ht hz.1 (Nat.lt_of_lt_of_le hlen (by decide)) hblock, hu⟩

theorem getLast?_splitOn (hblock : Block a) (ht : '\n' ∉ t) : ((a ++ t).splitOn '\n').getLast? = some t := by
  obtain ⟨l, _, hsplit⟩ := block_lines hblock
  rw [hsplit, splitOn_eq_singleton ht, getLast?_concat]

def mergedLine (t name : Str) : Str :=
  t ++ '[' :: (name ++ [']'])

theorem mergedLine_length (t name : Str)
    : (mergedLine t name).length < ETC_MAXLINE ↔ t.length + (printHeader name).length ≤ ETC_MAXLINE := by
  unfold mergedLine printHeader
  simp
  omega

theorem append_etcWriteSection (t : Str) (sect : Section)
    : t ++ etcWriteSection (some sect) = mergedLine t sect.name ++ '\n' :: (printPairs sect.keys ++ ['\n']) := by
  have hwrite : etcWriteSection (some sect) = printHeader sect.name ++ printPairs sect.keys ++ ['\n'] := rfl
  rw [hwrite]
  unfold mergedLine printHeader
  simp

theorem not_mem_mergedLine {c : Char} (ht : c ∉ t) {name : Str} (hname : c ∉ name) (hc : c ≠ '[' ∧ c ≠ ']')
    : c ∉ mergedLine t name := by
  unfold mergedLine
  simp [ht, hname, hc]

theorem items_pairs_end (hprint : sect.Printable) (hfits : ∀ entry ∈ sect.keys, PairFits entry.1 entry.2)
    : items (printPairs sect.keys ++ ['\n']) = pairs (spilled sect.keys) := by
  rw [items_printPairs_spilled hprint.keys hfits, items_newline, items_nil, append_nil]

theorem classify_merged (hname : SyntaxFree sect.name) (hprint : sect.Printable)
    (ht : getSectionName t ≠ some sect.name)
    : ((∀ c ∈ t, isBlank c = true) → classify (mergedLine t sect.name) = some (.header sect.name))
      ∧ (¬(∀ c ∈ t, isBlank c = true) → getSectionName (mergedLine t sect.name) ≠ some sect.name) := by
  constructor
  . intro hblank
    apply classify_of_name
    rw [mergedLine, getSectionName_blank hblank]
    exact getSectionName_printed hprint.name
  intro hblank hmerged
  rcases getSectionName_merged hmerged with hall | hsame | hbracket
  . exact hblank hall
  . exact ht hsame
  . have hfree := hname _ hbracket
    simp at hfree

theorem items_overlong (hn : '\n' ∉ mergedLine t sect.name) (hz : '\x00' ∉ mergedLine t sect.name)
    (hname : SyntaxFree sect.name) (ht : t.length < ETC_MAXLINE - 1) (hlen : sect.name.length < ETC_MAXLINE - 1)
    (hover : ¬(mergedLine t sect.name).length < ETC_MAXLINE) (r : Str)
    : ∃ first key value, items (mergedLine t sect.name ++ '\n' :: r)
      = (classify first).toList ++ .entry key value :: items r := by
  generalize hline : mergedLine t sect.name = line at *
  have hmax : ETC_MAXLINE - 1 ≤ line.length := by omega
  have hsize : line.length = t.length + sect.name.length + 2 := by
    rw [← hline, mergedLine]
    simp
    omega
  have hsplit := take_append_drop (ETC_MAXLINE - 1) line
  have hfirst : (line.take (ETC_MAXLINE - 1)).length = ETC_MAXLINE - 1 :=
    length_take_of_le hmax
  have hrest : (line.drop (ETC_MAXLINE - 1)).length < ETC_MAXLINE := by
    rw [length_drop]
    omega
  have hsuffix : line.drop (ETC_MAXLINE - 1) <:+ sect.name ++ [']'] := by
    have hall : line.drop (ETC_MAXLINE - 1) <:+ line := drop_suffix _ _
    have hend : sect.name ++ [']'] <:+ line := ⟨t ++ ['['], by simp [← hline, mergedLine]⟩
    apply suffix_of_suffix_length_le hall hend
    rw [length_drop, length_append, length_singleton]
    omega
  have hne : line.drop (ETC_MAXLINE - 1) ≠ [] := by
    intro hnil
    have hzero := congrArg List.length hnil
    rw [length_drop, List.length_nil] at hzero
    omega
  obtain ⟨key, value, hclass⟩ := classify_tail hname hsuffix hne
  refine ⟨line.take (ETC_MAXLINE - 1), key, value, ?_⟩
  have hnfirst : '\n' ∉ line.take (ETC_MAXLINE - 1) := fun h => hn ((take_subset _ _) h)
  have hzfirst : '\x00' ∉ line.take (ETC_MAXLINE - 1) := fun h => hz ((take_subset _ _) h)
  have hnrest : '\n' ∉ line.drop (ETC_MAXLINE - 1) := fun h => hn ((drop_subset _ _) h)
  have hzrest : '\x00' ∉ line.drop (ETC_MAXLINE - 1) := fun h => hz ((drop_subset _ _) h)
  conv =>
    lhs
    rw [← hsplit, append_assoc]
  rw [items_full hnfirst hzfirst hfirst, items_line hnrest hzrest hrest, hclass]
  rfl

theorem not_header_pairs (keys : List (Str × Str)) (pSection : Str)
    : ∀ item ∈ pairs keys, item ≠ .header pSection := by
  rintro item hitem rfl
  obtain ⟨entry, _, hentry⟩ := List.mem_map.mp hitem
  contradiction

theorem saves_new (hz : '\x00' ∉ content) (hlines : LinesShorter (ETC_MAXLINE - 1) content)
    (hnone : ∀ item ∈ items content, item ≠ .header sect.name) (hname : SyntaxFree sect.name)
    (hfree : ∀ entry ∈ sect.keys, SyntaxFree entry.1 ∧ '\x00' ∉ entry.2)
    : Saves content (content ++ etcWriteSection (some sect)) sect ↔ Savable content sect := by
  have hafter := afterHeader_eq_none hnone
  have hz' : '\x00' ∉ content ++ etcWriteSection (some sect) := by
    rw [not_mem_append]
    exact ⟨hz, not_mem_etcWriteSection hname.terminator
      (fun entry hentry => ⟨(hfree entry hentry).1.terminator, (hfree entry hentry).2⟩)⟩
  obtain ⟨a, t, hsplit, hblock, ht⟩ := exists_last_line hz hlines
  have hlast : (content.splitOn '\n').getLast? = some t := by
    rw [hsplit]
    exact getLast?_splitOn hblock ht
  have htin : t <:+: content := by
    rw [hsplit]
    exact (suffix_append a t).isInfix
  have hlen := hlines t htin ht
  have htz : '\x00' ∉ t := fun hmem => hz (htin.subset hmem)
  have hold : items content = items a ++ (classify t).toList := by
    rw [hsplit, items_append hblock]
    congr 1
    exact parsed_last rfl ht htz (Nat.lt_of_lt_of_le hlen (by decide))
  have hnonea : ∀ item ∈ items a, item ≠ .header sect.name := by
    intro item hitem
    apply hnone
    rw [hold]
    exact mem_append_left _ hitem
  have htname : getSectionName t ≠ some sect.name := by
    intro hsame
    apply hnone (.header sect.name)
    . rw [hold, classify_of_name hsame]
      simp
    . rfl
  have hbytes : content ++ etcWriteSection (some sect)
      = a ++ (mergedLine t sect.name ++ '\n' :: (printPairs sect.keys ++ ['\n'])) := by
    rw [hsplit, append_assoc, append_etcWriteSection]
  have hmn : '\n' ∉ mergedLine t sect.name := not_mem_mergedLine ht hname.newline (by decide)
  have hmz : '\x00' ∉ mergedLine t sect.name := not_mem_mergedLine htz hname.terminator (by decide)
  constructor
  . intro hsaves
    obtain ⟨tail, htail, hkeys⟩ := (held_iff hz').mp hsaves.held
    obtain ⟨hprint, hfits, hshort⟩ := printable_of_held hz' htail hkeys
    obtain ⟨hheader, hother⟩ := classify_merged hname hprint htname
    rw [hbytes, items_append hblock] at htail
    by_cases hm : (mergedLine t sect.name).length < ETC_MAXLINE
    . rw [items_line hmn hmz hm, items_pairs_end hprint hfits] at htail
      by_cases hblank : ∀ c ∈ t, isBlank c = true
      . rw [hheader hblank, toList_some, singleton_append, afterHeader_self hnonea] at htail
        injection htail with htail
        have hread := @entries_pairs_append (spilled sect.keys) [] rfl
        rw [append_nil] at hread
        rw [← htail, hread] at hkeys
        obtain ⟨hhead, hcond⟩ := (printable_iff hname hfree).mp ⟨hprint, (spilled_eq_iff _).mp hkeys⟩
        refine ⟨hhead, hcond, ?_⟩
        intro _ line hline
        rw [hlast] at hline
        injection hline with hline
        rw [← hline]
        exact ⟨hblank, (mergedLine_length t sect.name).mp hm⟩
      . exfalso
        rw [afterHeader_append_of_none hnonea, afterHeader_append_of_none (classify_ne_header (hother hblank)),
          afterHeader_eq_none (not_header_pairs _ _)] at htail
        contradiction
    exfalso
    obtain ⟨first, key, value, hitems⟩ := items_overlong hmn hmz hname hlen hshort hm
      (printPairs sect.keys ++ ['\n'])
    rw [hitems, items_pairs_end hprint hfits, afterHeader_append_of_none hnonea] at htail
    have hentries : pairs ((key, value) :: spilled sect.keys) = .entry key value :: pairs (spilled sect.keys) := rfl
    rw [← hentries] at htail
    by_cases hfirst : getSectionName first = some sect.name
    . rw [classify_of_name hfirst, toList_some, singleton_append, afterHeader, if_pos rfl] at htail
      injection htail with htail
      have hread := @entries_pairs_append ((key, value) :: spilled sect.keys) [] rfl
      rw [append_nil] at hread
      rw [← htail, hread] at hkeys
      have hlength := congrArg List.length hkeys
      have hle := spilled_length sect.keys
      rw [length_cons] at hlength
      omega
    . rw [afterHeader_append_of_none (classify_ne_header hfirst), afterHeader_eq_none (not_header_pairs _ _)] at htail
      contradiction
  intro hsavable
  obtain ⟨hprint, hfits⟩ := (printable_iff hname hfree).mpr ⟨hsavable.name_head, hsavable.keys⟩
  obtain ⟨hblank, hheader⟩ := hsavable.ended hafter t hlast
  have hm := (mergedLine_length t sect.name).mpr hheader
  have hnew : items (content ++ etcWriteSection (some sect))
      = items a ++ .header sect.name :: (pairs sect.keys ++ []) := by
    rw [hbytes, items_append hblock, items_line hmn hmz hm, (classify_merged hname hprint htname).1 hblank,
      items_pairs_end hprint (fun entry hentry => Or.inl (hfits entry hentry)), (spilled_eq_iff _).mpr hfits,
      append_nil]
    rfl
  have hnothing : classify t = none := by
    apply classify_of_nothing
    have hskip : skipBlanks t = [] := dropWhile_eq_nil_iff.mpr hblank
    unfold getKeyValue
    rw [hskip]
  constructor
  . rw [held_iff hz', hnew, afterHeader_self hnonea]
    exact ⟨_, rfl, entries_pairs_append _ rfl⟩
  . rw [etcReadSections_eq _ hz', etcReadSections_eq _ hz, hnew, eraseP_sections hnonea _ rfl,
      eraseP_of_none hnone, hold, hnothing]
    rfl

end New

section Main

variable {content : Str} {sect : Section}

/--
A section is written and nothing else changes if and only if it can be read back and does not run together with an
unended last line; a section that is removed never takes anything else with it.
-/
theorem etc_revise_changes_nothing_else (hz : '\x00' ∉ content) (hlines : LinesShorter (ETC_MAXLINE - 1) content)
    (hname : SyntaxFree sect.name) (hfree : ∀ entry ∈ sect.keys, SyntaxFree entry.1 ∧ '\x00' ∉ entry.2)
    : ((∃ content', saveSectionToEtcFile (some content) sect = (.ok, some content') ∧ Saves content content' sect)
        ↔ Savable content sect)
      ∧ ∀ content', removeSectionInEtcFile (some content) sect.name = (.ok, some content')
        → Removes content content' sect.name := by
  rcases etcLocateSection_cut sect.name hz hlines [] with ⟨hlocated, hnone⟩ | ⟨before, name_line, rest, hcut, _⟩
  . obtain ⟨hsave, hremove⟩ := save_new (congrArg Located.status hlocated)
    constructor
    . rw [hsave, ← saves_new hz hlines hnone hname hfree]
      constructor
      . rintro ⟨content', hcontent, hsaves⟩
        cases hcontent
        exact hsaves
      . intro hsaves
        exact ⟨_, rfl, hsaves⟩
    . intro content' hok
      rw [hremove] at hok
      cases hok
  have hwrite := not_mem_etcWriteSection hname.terminator
    (fun entry hentry => ⟨(hfree entry hentry).1.terminator, (hfree entry hentry).2⟩)
  constructor
  . rw [save_old hcut hz hlines hwrite, ← saves_old hcut hz hlines hname hfree]
    constructor
    . rintro ⟨content', hcontent, hsaves⟩
      cases hcontent
      exact hsaves
    . intro hsaves
      exact ⟨_, rfl, hsaves⟩
  . intro content' hok
    rw [remove_old hcut hz hlines] at hok
    cases hok
    exact removes_old hcut hz hlines

theorem linesShorter_small {s : Str} (h : s.length < ETC_MAXLINE - 1) : LinesShorter (ETC_MAXLINE - 1) s := by
  intro t ht _
  exact Nat.lt_of_le_of_lt ht.length_le h

def oneKey : Section :=
  { name := ['t'], keys := [(['k'], ['v'])] }

theorem oneKey_free : SyntaxFree oneKey.name ∧ ∀ entry ∈ oneKey.keys, SyntaxFree entry.1 ∧ '\x00' ∉ entry.2 := by
  unfold SyntaxFree oneKey
  simp

theorem etc_revise_changes_nothing_else_small
    : ((∃ content', saveSectionToEtcFile (some "[s]\na=b\n".toList) oneKey = (.ok, some content')
          ∧ Saves "[s]\na=b\n".toList content' oneKey)
        ↔ Savable "[s]\na=b\n".toList oneKey)
      ∧ ∀ content', removeSectionInEtcFile (some "[s]\na=b\n".toList) oneKey.name = (.ok, some content')
        → Removes "[s]\na=b\n".toList content' oneKey.name :=
  etc_revise_changes_nothing_else (by decide) (linesShorter_small (by decide)) oneKey_free.1 oneKey_free.2

theorem not_etc_revise_changes_nothing_else
    : ¬∀ (content : Str) (sect : Section), '\x00' ∉ content → LinesShorter (ETC_MAXLINE - 1) content
        → SyntaxFree sect.name → (∀ entry ∈ sect.keys, SyntaxFree entry.1 ∧ '\x00' ∉ entry.2)
        → ∃ content', saveSectionToEtcFile (some content) sect = (.ok, some content')
          ∧ Saves content content' sect := by
  intro h
  obtain ⟨content', hsave, hsaves⟩ :=
    h "[s]\na=b".toList oneKey (by decide) (linesShorter_small (by decide)) oneKey_free.1 oneKey_free.2
  have hfile : saveSectionToEtcFile (some "[s]\na=b".toList) oneKey
      = (.ok, some "[s]\na=b[t]\nk=v\n\n".toList) := by
    decide +kernel
  rw [hfile] at hsave
  cases hsave
  have hheld := hsaves.held
  revert hheld
  decide +kernel

end Main

end MiniGui.Etc
