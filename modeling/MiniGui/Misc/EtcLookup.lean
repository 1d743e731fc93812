import MiniGui.Misc.Etc

namespace MiniGui.Etc

open List Option

open TextLines

def headerText (line : Str) : Option Str :=
  match skipBlanks line with
  | '[' :: text => some (text.takeWhile fun c => c ≠ ']' && c ≠ ';' && c ≠ '#')
  | _ => none

def headerName (line : Str) : Option Str :=
  (headerText line).map fun text => trimRight (skipBlanks text)

def headerNames (content : Str) : List Str :=
  (content.splitOn '\n').filterMap headerName

structure LookupsAgree (content : Str) (petc : EtcS) : Prop where
  agree : ∀ pSection pKey iLen, 0 < iLen →
    getValueFromEtcFile (some content) (some pSection) pKey iLen = getValueFromEtc petc pSection pKey iLen
  loaded : petc.map (Option.map Section.name) = (headerNames content).map some
  located : ∀ pSection, (etcLocateSection pSection content []).status = .ok ↔ pSection ∈ headerNames content

theorem find?_sections (l : List Item) (pSection : Str)
    : ((sections l).map some).find? (isNamed pSection) =
      (afterHeader pSection l).map fun tail => some { name := pSection, keys := entries tail } := by
  induction l with
  | nil => rfl
  | cons item l ih =>
    cases item with
    | entry key value => exact ih
    | header name =>
      rw [sections, map_cons, find?_cons, afterHeader]
      by_cases h : name = pSection
      . rw [if_pos h]
        simp [isNamed, h]
      . rw [if_neg h, ← ih]
        simp [isNamed, h]

theorem getValueFromEtc_sections (l : List Item) (pSection pKey : Str) (iLen : Nat)
    : getValueFromEtc ((sections l).map some) pSection pKey iLen = lookupIn l pSection pKey iLen := by
  unfold getValueFromEtc lookupIn
  rw [find?_sections]
  rcases afterHeader pSection l with _ | tail
  . rfl
  . rcases hget : etcGetKey (entries tail) pKey with _ | value
    . simp only [map_some, hget]
    . simp only [map_some, hget]

theorem getValueFromEtcFile_loaded {content : Str} (hz : '\x00' ∉ content) (pSection pKey : Str) (iLen : Nat)
    : getValueFromEtcFile (some content) (some pSection) pKey iLen =
      getValueFromEtc (etcReadSections content) pSection pKey iLen := by
  rw [getValueFromEtcFile_eq, etcReadSections_eq content hz, getValueFromEtc_sections]

theorem takeWhile_dropWhile_comm {p q : Char → Bool} (h : ∀ c, q c = true → p c = true) (s : Str)
    : (s.dropWhile q).takeWhile p = (s.takeWhile p).dropWhile q := by
  induction s with
  | nil => rfl
  | cons c s ih =>
    rw [dropWhile_cons, takeWhile_cons]
    split
    next hq => rw [if_pos (h c hq), dropWhile_cons_of_pos hq, ih]
    next hq =>
      rw [takeWhile_cons]
      split
      . rw [dropWhile_cons_of_neg hq]
      . rfl

theorem takeWhile_congr_mem {p q : Char → Bool} {s : Str} (h : ∀ c ∈ s, p c = q c)
    : s.takeWhile p = s.takeWhile q := by
  induction s with
  | nil => rfl
  | cons c s ih =>
    rw [takeWhile_cons, takeWhile_cons, h c mem_cons_self,
      ih fun a ha => h a (mem_cons_of_mem c ha)]

theorem getSectionName_eq {line : Str} (hn : '\n' ∉ line)
    : getSectionName line = (headerText line).map skipBlanks := by
  unfold getSectionName headerText
  rcases hs : skipBlanks line with _ | ⟨c, text⟩
  . rfl
  have hline : '\n' ∉ text := by
    intro hmem
    apply hn
    have hsub : text ⊆ line := by
      intro a ha
      apply (dropWhile_suffix isBlank).subset
      unfold skipBlanks at hs
      rw [hs]
      exact mem_cons_of_mem c ha
    exact hsub hmem
  split
  next heq =>
    injection heq with hc _
    rw [hc]
    rfl
  next heq =>
    injection heq with hc _
    rw [hc]
    rfl
  next current heq =>
    injection heq with hc ht
    rw [hc, ← ht]
    unfold sectionName skipBlanks
    rw [takeWhile_dropWhile_comm]
    . congr 2
      apply takeWhile_congr_mem
      intro a ha
      have hne : a ≠ '\n' := fun heq => hline (heq ▸ ha)
      simp [hne]
    intro a ha
    unfold isBlank at ha
    rw [Bool.or_eq_true, beq_iff_eq, beq_iff_eq] at ha
    rcases ha with rfl | rfl
    . decide
    . decide
  next h1 h2 h3 =>
    split
    next heq =>
      injection heq with hc _
      exact absurd (congrArg (· :: text) hc) (h3 text)
    . rfl

theorem sections_names (l : List Str)
    : (sections (l.filterMap classify)).map Section.name = l.filterMap getSectionName := by
  induction l with
  | nil => rfl
  | cons line l ih =>
    rw [filterMap_cons_toList, filterMap_cons_toList, ← ih]
    rcases hname : getSectionName line with _ | name
    . rcases classify_of_name_none hname with hc | ⟨key, value, hc⟩
      . rw [hc]
        rfl
      . rw [hc]
        rfl
    . rw [classify_of_name hname]
      rfl

theorem afterHeader_isSome (l : List Item) (pSection : Str)
    : (afterHeader pSection l).isSome ↔ pSection ∈ (sections l).map Section.name := by
  induction l with
  | nil => simp [afterHeader, sections]
  | cons item l ih =>
    cases item with
    | entry key value => exact ih
    | header name =>
      rw [afterHeader, sections, map_cons, mem_cons, ← ih]
      by_cases h : name = pSection
      . simp [h]
      . simp [h, Ne.symm h]

theorem etcLocateSection_isSome (pSection content : Str)
    : (etcLocateSection pSection content []).status = .ok ↔ (afterHeader pSection (items content)).isSome := by
  have hspec := etcLocateSection_spec pSection content []
  rcases hafter : afterHeader pSection (items content) with _ | tail
  . rw [hafter] at hspec
    rw [hspec]
    decide
  . rw [hafter] at hspec
    rw [hspec.1]
    simp

theorem sections_items_names {content : Str} (hlines : LinesShorter (ETC_MAXLINE - 1) content)
    (hz : '\x00' ∉ content) : (sections (items content)).map Section.name =
      ((content.splitOn '\n').filterMap headerText).map skipBlanks := by
  unfold items
  rw [parsed_eq_splitOn rfl hz (hlines.of_le (by decide)), sections_names, map_filterMap]
  apply filterMap_congr
  intro line hline
  apply getSectionName_eq
  exact not_mem_of_mem_splitOn hline

theorem headerNames_eq (content : Str) : headerNames content =
      ((content.splitOn '\n').filterMap headerText).map fun text => trimRight (skipBlanks text) := by
  unfold headerNames headerName
  rw [map_filterMap]

theorem trimRight_eq_self (s : Str)
    : trimRight s = s ↔ ∀ c, s.getLast? = some c → isBlank c = false := by
  unfold trimRight
  rw [rdropWhile_eq_self_iff]
  constructor
  . intro h c hc
    have hne : s ≠ [] := by
      rintro rfl
      contradiction
    rw [getLast?_eq_some_getLast hne] at hc
    injection hc with hc
    rw [← hc]
    exact eq_false_of_ne_true (h hne)
  . intro h hne
    rw [h _ (getLast?_eq_some_getLast hne)]
    decide

/--
A file and the object loaded from it always give the same answers. The names are the names without blanks around
them if and only if no header has a blank behind its name.
-/
theorem etc_lookups_agree {content : Str} (hlines : LinesShorter (ETC_MAXLINE - 1) content) (hz : '\x00' ∉ content)
    : (∃ petc, loadEtcFile (some content) = some petc ∧ LookupsAgree content petc)
      ↔ ∀ line ∈ content.splitOn '\n', ∀ text, headerText line = some text →
          ∀ c, (skipBlanks text).getLast? = some c → isBlank c = false := by
  have hnames := sections_items_names hlines hz
  have hheader := headerNames_eq content
  constructor
  . rintro ⟨petc, hload, hagree⟩ line hline text htext
    injection hload with hload
    have hloaded := hagree.loaded
    rw [← hload, etcReadSections_eq content hz, List.map_map, hheader] at hloaded
    have hmap : ((sections (items content)).map Section.name).map some =
        (((content.splitOn '\n').filterMap headerText).map fun text => trimRight (skipBlanks text)).map some := by
      rw [← hloaded, List.map_map]
      rfl
    have hsame := (map_injective_iff.mpr (some_injective Str)) hmap
    rw [hnames] at hsame
    have htrim := map_inj_left.mp hsame text (mem_filterMap.mpr ⟨line, hline, htext⟩)
    exact (trimRight_eq_self _).mp htrim.symm
  intro hblank
  have hsame : (sections (items content)).map Section.name = headerNames content := by
    rw [hnames, hheader]
    apply map_congr_left
    intro text htext
    obtain ⟨line, hline, hsome⟩ := mem_filterMap.mp htext
    exact ((trimRight_eq_self _).mpr (hblank line hline text hsome)).symm
  refine ⟨etcReadSections content, rfl, ?_, ?_, ?_⟩
  . intro pSection pKey iLen _
    exact getValueFromEtcFile_loaded hz pSection pKey iLen
  . rw [etcReadSections_eq content hz, ← hsame, List.map_map, List.map_map]
    rfl
  . intro pSection
    rw [etcLocateSection_isSome, afterHeader_isSome, hsame]

theorem etc_lookups_agree_blank
    : LinesShorter (ETC_MAXLINE - 1) "[ab ]\nk=v\n".toList ∧ '\x00' ∉ "[ab ]\nk=v\n".toList
        ∧ ¬∃ petc, loadEtcFile (some "[ab ]\nk=v\n".toList) = some petc
            ∧ LookupsAgree "[ab ]\nk=v\n".toList petc := by
  refine ⟨?_, by decide, ?_⟩
  . intro t ht _
    have hlen := ht.length_le
    have hten : "[ab ]\nk=v\n".toList.length = 10 := by decide
    rw [hten] at hlen
    unfold ETC_MAXLINE
    omega
  rintro ⟨petc, _, hagree⟩
  have hlocated := (hagree.located "ab".toList).mpr (by decide)
  revert hlocated
  decide +kernel

theorem etc_lookups_agree_plain
    : ∃ petc, loadEtcFile (some "[ab]\nk=v\n".toList) = some petc ∧ LookupsAgree "[ab]\nk=v\n".toList petc := by
  apply (etc_lookups_agree ?_ (by decide)).mpr
  swap
  . intro t ht _
    have hlen := ht.length_le
    have hnine : "[ab]\nk=v\n".toList.length = 9 := by decide
    rw [hnine] at hlen
    unfold ETC_MAXLINE
    omega
  have hsplit : "[ab]\nk=v\n".toList.splitOn '\n' = ["[ab]".toList, "k=v".toList, []] := by decide
  have hheader : headerText "[ab]".toList = some "ab".toList := by decide
  have hentry : headerText "k=v".toList = none := by decide
  intro line hline text htext c hc
  rw [hsplit, mem_cons, mem_cons, mem_singleton] at hline
  rcases hline with rfl | rfl | rfl
  . rw [hheader] at htext
    injection htext with htext
    rw [← htext] at hc
    have hlast : (skipBlanks "ab".toList).getLast? = some 'b' := by decide
    rw [hlast] at hc
    injection hc with hc
    rw [← hc]
    decide
  . rw [hentry] at htext
    contradiction
  . contradiction

end MiniGui.Etc
