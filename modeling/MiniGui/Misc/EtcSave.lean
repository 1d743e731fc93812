import MiniGui.Misc.EtcText

namespace MiniGui.Etc

open List

open TextLines

structure Section.Printable (sect : Section) : Prop where
  name : PrintableName sect.name
  keys : ∀ entry ∈ sect.keys, PrintableKey entry.1 ∧ SingleLine entry.2

def AllPrintable (petc : EtcS) : Prop :=
  ∀ sect, some sect ∈ petc → sect.Printable

def Fits (petc : EtcS) : Prop :=
  ∀ sect, some sect ∈ petc →
    (printHeader sect.name).length ≤ ETC_MAXLINE ∧ ∀ entry ∈ sect.keys, (printPair entry.1 entry.2).length ≤ ETC_MAXLINE

def live (petc : EtcS) : List Section :=
  petc.reduceOption

inductive Edit where
  | set (pSection pKey pValue : Str)
  | create (pSection : Str)
  | remove (pSection : Str)
deriving DecidableEq, Repr

namespace Edit

def apply (petc : EtcS) : Edit → EtcS
  | set pSection pKey pValue => setValueToEtc petc pSection pKey pValue
  | create pSection => findSectionInEtc petc pSection
  | remove pSection => (removeSectionInEtc petc pSection).2

def Plain : Edit → Prop
  | set pSection pKey pValue => SyntaxFree pSection ∧ SyntaxFree pKey ∧ SingleLine pValue
  | create pSection => SyntaxFree pSection
  | remove pSection => SyntaxFree pSection

def Unpadded : Edit → Prop
  | set pSection pKey _ => NoLeadingBlank pSection ∧ NoLeadingBlank pKey ∧ NoTrailingBlank pKey
  | create pSection => NoLeadingBlank pSection
  | remove _ => True

end Edit

theorem etcReadSection_printable (fp : Str) (psect : Option Section)
    (hsect : ∀ sect, psect = some sect → sect.Printable)
    : ∀ sect, (etcReadSection fp psect).1 = some sect → sect.Printable := by
  fun_induction etcReadSection fp psect with
  | case1 fp psect h | case5 fp line rest h sect hkey => exact hsect
  | case2 fp line rest h hname ih | case4 fp line rest h sect hkey ih => exact ih hsect
  | case3 fp line rest h name hname ih =>
    apply ih
    intro sect heq
    injection heq with heq
    rw [← heq]
    constructor
    . exact getSectionName_printable (not_mem_textOf line) hname
    . simp
  | case6 fp line rest h sect key value hkey ih =>
    apply ih
    intro sect' heq
    injection heq with heq
    rw [← heq]
    have hold := hsect sect rfl
    constructor
    . exact hold.name
    intro entry hentry
    unfold etcNewKeyValue at hentry
    rw [mem_append, mem_singleton] at hentry
    rcases hentry with hentry | rfl
    . exact hold.keys entry hentry
    . exact getKeyValue_printable (not_mem_textOf line) hkey

theorem etcReadSections_printable (fp : Str) : AllPrintable (etcReadSections fp) := by
  induction hn : fp.length using Nat.strong_induction_on generalizing fp with
  | _ n ih =>
    intro sect hsect
    rw [etcReadSections] at hsect
    split at hsect
    . contradiction
    next first heq =>
      rw [mem_cons] at hsect
      rcases hsect with hsect | hsect
      . apply etcReadSection_printable fp none (by simp)
        rw [heq, hsect]
      . have hlt := (etcReadSection_length fp none).2 rfl (by simp [heq])
        exact ih _ (by omega) (etcReadSection fp none).2 rfl sect hsect

theorem etcReadSections_live (fp : Str)
    : (live (etcReadSections fp)).map some = etcReadSections fp := by
  induction hn : fp.length using Nat.strong_induction_on generalizing fp with
  | _ n ih =>
    rw [etcReadSections]
    split
    . rfl
    next first heq =>
      have hlt := (etcReadSection_length fp none).2 rfl (by simp [heq])
      have hrest := ih _ (by omega) (etcReadSection fp none).2 rfl
      unfold live at hrest ⊢
      rw [reduceOption_cons_of_some, map_cons, hrest]

section Edits

variable {petc : EtcS}

theorem mem_newSection {sect : Section} {x : Option Section} (h : x ∈ newSection petc sect)
    : x ∈ petc ∨ x = some sect := by
  unfold newSection at h
  split at h
  . exact mem_or_eq_of_mem_set h
  . rw [mem_append, mem_singleton] at h
    exact h

theorem findSectionInEtc_printable (h : AllPrintable petc) {pSection : Str} (hname : PrintableName pSection)
    : AllPrintable (findSectionInEtc petc pSection) := by
  unfold findSectionInEtc
  split
  . exact h
  intro sect hsect
  rcases mem_newSection hsect with hold | hnew
  . exact h sect hold
  injection hnew with hnew
  rw [hnew]
  constructor
  . exact hname
  . simp

theorem mem_modify {α : Type} {l : List α} {i : Nat} {f : α → α} {x : α} (h : x ∈ l.modify i f)
    : x ∈ l ∨ ∃ y ∈ l, x = f y := by
  obtain ⟨j, hj, rfl⟩ := mem_iff_getElem.mp h
  rw [getElem_modify]
  rw [length_modify] at hj
  split
  . exact .inr ⟨l[j], getElem_mem hj, rfl⟩
  . exact .inl (getElem_mem hj)

theorem mem_etcSetKey {keys : List (Str × Str)} {pKey pValue : Str} {entry : Str × Str}
    (h : entry ∈ etcSetKey keys pKey pValue) : entry ∈ keys ∨ entry = (pKey, pValue) := by
  induction keys with
  | nil => exact .inr (mem_singleton.mp h)
  | cons first keys ih =>
    unfold etcSetKey at h
    split at h
    next hkey =>
      rw [mem_cons] at h
      rcases h with rfl | h
      . right
        rw [hkey]
      . exact .inl (mem_cons_of_mem _ h)
    next =>
      rw [mem_cons] at h
      rcases h with rfl | h
      . exact .inl mem_cons_self
      . rcases ih h with hold | hnew
        . exact .inl (mem_cons_of_mem _ hold)
        . exact .inr hnew

variable (h : AllPrintable petc)
include h

theorem setValueToEtc_printable {pSection pKey pValue : Str}
    (hname : PrintableName pSection) (hkey : PrintableKey pKey) (hvalue : SingleLine pValue)
    : AllPrintable (setValueToEtc petc pSection pKey pValue) := by
  have hfound := findSectionInEtc_printable h hname
  unfold setValueToEtc
  dsimp only
  split
  . intro sect hsect
    rcases mem_modify hsect with hold | ⟨old, hold, heq⟩
    . exact hfound sect hold
    cases old with
    | none => contradiction
    | some old =>
      have hprint := hfound old hold
      injection heq with heq
      rw [heq]
      constructor
      . exact hprint.name
      intro entry hentry
      rcases mem_etcSetKey hentry with hentry | rfl
      . exact hprint.keys entry hentry
      . exact ⟨hkey, hvalue⟩
  . exact hfound

theorem removeSectionInEtc_printable (pSection : Str)
    : AllPrintable (removeSectionInEtc petc pSection).2 := by
  unfold removeSectionInEtc
  split
  . exact h
  intro sect hsect
  rcases mem_or_eq_of_mem_set hsect with hold | hnew
  . exact h sect hold
  . contradiction

theorem apply_printable {e : Edit} (hplain : e.Plain) (hpad : e.Unpadded)
    : AllPrintable (e.apply petc) := by
  cases e with
  | set pSection pKey pValue =>
    apply setValueToEtc_printable h
    . exact hplain.1.printableName hpad.1
    . exact hplain.2.1.printableKey hpad.2.1 hpad.2.2
    . exact hplain.2.2
  | create pSection => exact findSectionInEtc_printable h (SyntaxFree.printableName hplain hpad)
  | remove pSection => exact removeSectionInEtc_printable h pSection

theorem foldl_apply_printable (edits : List Edit)
    (hedits : ∀ e ∈ edits, e.Plain ∧ e.Unpadded) : AllPrintable (edits.foldl Edit.apply petc) := by
  induction edits generalizing petc with
  | nil => exact h
  | cons e edits ih =>
    have hfirst := hedits e mem_cons_self
    apply ih (apply_printable h hfirst.1 hfirst.2)
    exact fun a ha => hedits a (mem_cons_of_mem e ha)

end Edits

def itemsOf (sect : Section) : List Item :=
  .header sect.name :: pairs sect.keys

theorem sections_itemsOf (l : List Section) : sections (l.flatMap itemsOf) = l := by
  induction l with
  | nil => rfl
  | cons sect l ih =>
    have hnone : entries (l.flatMap itemsOf) = [] := by
      cases l with
      | nil => rfl
      | cons next l => rfl
    rw [flatMap_cons, itemsOf, cons_append, sections, sections_pairs, entries_pairs, hnone, ih,
      append_nil]

section

variable {petc : EtcS} (h : AllPrintable petc)
include h

theorem items_save (hfits : Fits petc)
    : items (saveEtcToFile petc) = (live petc).flatMap itemsOf := by
  induction petc with
  | nil => exact items_nil
  | cons psect petc ih =>
    have htail := ih (fun sect hs => h sect (mem_cons_of_mem _ hs))
      (fun sect hs => hfits sect (mem_cons_of_mem _ hs))
    unfold saveEtcToFile live at htail ⊢
    rw [flatMap_cons]
    cases psect with
    | none =>
      rw [reduceOption_cons_of_none, ← htail]
      rfl
    | some sect =>
      have hprint := h sect mem_cons_self
      have hfit := hfits sect mem_cons_self
      have hwrite : etcWriteSection (some sect) =
          printHeader sect.name ++ printPairs sect.keys ++ ['\n'] := rfl
      rw [hwrite, append_assoc, append_assoc, items_printHeader hprint.name hfit.1,
        items_pairs hprint.keys hfit.2,
        singleton_append, items_newline, htail, reduceOption_cons_of_some, flatMap_cons]
      rfl

theorem not_mem_save : '\x00' ∉ saveEtcToFile petc := by
  intro hmem
  unfold saveEtcToFile at hmem
  obtain ⟨psect, hpsect, hmem⟩ := mem_flatMap.mp hmem
  cases psect with
  | none => contradiction
  | some sect =>
    have hprint := h sect hpsect
    unfold etcWriteSection printHeader printPair at hmem
    simp at hmem
    rcases hmem with hmem | ⟨key, value, hentry, hmem⟩
    . exact (hprint.name.chars _ hmem).2.2.2.2 rfl
    have hkey := hprint.keys _ hentry
    rcases hmem with hmem | hmem
    . exact (hkey.1.chars _ hmem).2.2.2.2 rfl
    . exact hkey.2.terminator hmem

theorem load_save (hfits : Fits petc)
    : loadEtcFile (some (saveEtcToFile petc)) = some ((live petc).map some) := by
  unfold loadEtcFile
  rw [Option.map_some, etcReadSections_eq _ (not_mem_save h), items_save h hfits, sections_itemsOf]

end

/--
A loaded object is written and read back as it is, and after any edits as the sections that are left in it.
-/
theorem etc_save_loses_nothing (content : Str) (petc : EtcS) (hload : loadEtcFile (some content) = some petc)
    : (Fits petc → loadEtcFile (some (saveEtcToFile petc)) = some petc)
      ∧ ∀ edits : List Edit, (∀ e ∈ edits, e.Plain ∧ e.Unpadded) → Fits (edits.foldl Edit.apply petc) →
          loadEtcFile (some (saveEtcToFile (edits.foldl Edit.apply petc))) =
            some ((live (edits.foldl Edit.apply petc)).map some) := by
  injection hload with hload
  rw [← hload]
  have hprint := etcReadSections_printable content
  constructor
  . intro hfits
    rw [load_save hprint hfits, etcReadSections_live]
  . intro edits hedits hfits
    exact load_save (foldl_apply_printable hprint edits hedits) hfits

theorem etc_save_loses_nothing_small
    : loadEtcFile (some (saveEtcToFile [some { name := "s".toList, keys := [("k".toList, " v;".toList)] }])) =
        some [some { name := "s".toList, keys := [("k".toList, " v;".toList)] }] := by
  have hload : loadEtcFile (some "[s]\nk = v;\n".toList) =
      some [some { name := "s".toList, keys := [("k".toList, " v;".toList)] }] := by
    decide +kernel
  apply (etc_save_loses_nothing _ _ hload).1
  intro sect hsect
  rw [mem_singleton] at hsect
  injection hsect with hsect
  rw [hsect]
  decide

theorem etc_save_padded_name
    : Edit.Plain (.create " ab".toList) ∧ Fits ([Edit.create " ab".toList].foldl Edit.apply [])
        ∧ loadEtcFile (some []) = some []
        ∧ loadEtcFile (some (saveEtcToFile ([Edit.create " ab".toList].foldl Edit.apply [])))
          ≠ some ((live ([Edit.create " ab".toList].foldl Edit.apply [])).map some) := by
  have hobj : [Edit.create " ab".toList].foldl Edit.apply [] = [some { name := " ab".toList, keys := [] }] := by
    decide
  rw [hobj]
  refine ⟨?_, ?_, ?_, ?_⟩
  . have hchars : " ab".toList = [' ', 'a', 'b'] := by decide
    intro c hc
    rw [hchars] at hc
    simp at hc
    rcases hc with rfl | rfl | rfl
    . decide
    . decide
    . decide
  . intro sect hsect
    rw [mem_singleton] at hsect
    injection hsect with hsect
    rw [hsect]
    decide
  . decide +kernel
  . decide +kernel

end MiniGui.Etc
