import MiniGui.Misc.EtcSet

namespace MiniGui.Etc

open TextLines

def etcLocateSection2 (pSection : Str) (fp bak_fp : Str) : Located :=
  match _h : fgets szBuff fp with
  | none => { status := .sectionNotFound, pValue := [], fp := fp, bak_fp := bak_fp }
  | some (line, rest) =>
    if getSectionName (cString line) = some pSection then
      { status := .ok, pValue := [], fp := rest, bak_fp := bak_fp }
    else
      etcLocateSection2 pSection rest (bak_fp ++ cString line)
termination_by fp.length
decreasing_by exact fgets_lt _h

def etcFindNextSection (fp : Str) : Str :=
  match _h : fgets szBuff fp with
  | none => fp
  | some (line, rest) =>
    if (getSectionName (cString line)).isSome then
      seekBack (cString line).length line rest
    else
      etcFindNextSection rest
termination_by fp.length
decreasing_by exact fgets_lt _h

def etcReviseSectionInEtcFile (etcFile : Option Str) (psect : Section) (bRemove : Bool) : Status × Option Str :=
  match etcFile with
  | none => if bRemove then (.sectionNotFound, none) else (.ok, some (etcWriteSection (some psect)))
  | some content =>
    let located := etcLocateSection2 psect.name content []
    match located.status with
    | .sectionNotFound =>
      if bRemove then
        (.sectionNotFound, some content)
      else
        (.ok, some (content ++ etcWriteSection (some psect)))
    | .ok =>
      let tmp_fp := if bRemove then located.bak_fp else located.bak_fp ++ etcWriteSection (some psect)
      (.ok, some (etcFileCopy copyBuff (tmp_fp ++ etcFileCopy copyBuff (etcFindNextSection located.fp))))
    | status => (status, some content)

def saveSectionToEtcFile (etcFile : Option Str) (psect : Section) : Status × Option Str :=
  etcReviseSectionInEtcFile etcFile psect false

def removeSectionInEtcFile (etcFile : Option Str) (pSection : Str) : Status × Option Str :=
  etcReviseSectionInEtcFile etcFile { name := pSection, keys := [] } true

section Locate

variable {content pSection before name_line rest : Str}

theorem etcLocateSection2_status (pSection fp bak_fp bak_fp' : Str)
    : (etcLocateSection2 pSection fp bak_fp).status = (etcLocateSection pSection fp bak_fp').status := by
  fun_induction etcLocateSection2 pSection fp bak_fp generalizing bak_fp' with
  | case1 fp bak_fp h =>
    rw [etcLocateSection]
    split
    . rfl
    next hsome =>
      rw [h] at hsome
      contradiction
  | case2 fp bak_fp line rest h hname =>
    rw [etcLocateSection]
    split
    next hnone =>
      rw [h] at hnone
      contradiction
    next line' rest' hsome =>
      rw [h] at hsome
      injection hsome with hsome
      injection hsome with hline _
      rw [← hline, if_pos hname]
  | case3 fp bak_fp line rest h hname ih =>
    rw [etcLocateSection]
    split
    next hnone =>
      rw [h] at hnone
      contradiction
    next line' rest' hsome =>
      rw [h] at hsome
      injection hsome with hsome
      injection hsome with hline hrest
      rw [← hline, ← hrest, if_neg hname]
      exact ih _

theorem etcLocateSection2_step {fp line tail : Str} (h : fgets szBuff fp = some (line, tail)) (bak_fp : Str)
    : etcLocateSection2 pSection fp bak_fp
      = if getSectionName (cString line) = some pSection then
          { status := .ok, pValue := [], fp := tail, bak_fp := bak_fp }
        else
          etcLocateSection2 pSection tail (bak_fp ++ cString line) := by
  rw [etcLocateSection2]
  split
  next hnone =>
    rw [h] at hnone
    contradiction
  next line' rest' hsome =>
    rw [h] at hsome
    injection hsome with hsome
    injection hsome with hline hrest
    rw [hline, hrest]

theorem etcLocateSection2_block (hblock : Block before) (hnone : ∀ item ∈ items before, item ≠ .header pSection)
    (hlines : LinesShorter (ETC_MAXLINE - 1) before) (r bak_fp : Str)
    : etcLocateSection2 pSection (before ++ r) bak_fp = etcLocateSection2 pSection r (bak_fp ++ before) := by
  induction hblock generalizing bak_fp with
  | nil => rw [List.nil_append, List.append_nil]
  | @line t a hn hz hlen _ ih =>
    have hshort := hlines t (List.prefix_append _ _).isInfix hn
    have hread := fgets_line hn hshort (a ++ r)
    have htz : '\x00' ∉ t ++ ['\n'] := by
      rw [not_mem_append]
      exact ⟨hz, by decide⟩
    rw [items_line hn hz hlen] at hnone
    have hname : getSectionName (cString (t ++ ['\n'])) ≠ some pSection := by
      rw [cString_eq_self htz, getSectionName_concat]
      intro hname
      apply hnone (.header pSection)
      . rw [classify_of_name hname]
        simp
      . rfl
    have hrest := ih (fun item hitem => hnone item (List.mem_append_right _ hitem))
      (hlines.within ⟨t ++ ['\n'], [], by simp⟩) (bak_fp ++ (t ++ ['\n']))
    rw [List.append_assoc, List.cons_append, etcLocateSection2_step hread, if_neg hname, cString_eq_self htz, hrest]
    simp

theorem etcLocateSection2_cut (hcut : Cut pSection content before name_line rest) (hz : '\x00' ∉ content)
    (hlines : LinesShorter (ETC_MAXLINE - 1) content)
    : etcLocateSection2 pSection content [] = { status := .ok, pValue := [], fp := rest, bak_fp := before } := by
  obtain ⟨t, ht, hname, hline⟩ := hcut.line
  have hin : name_line <:+: content := by
    rw [hcut.eq]
    exact ⟨before, rest, rfl⟩
  have htline : t <:+: name_line := by
    rcases hline with hline | ⟨hline, _⟩
    . rw [hline]
      exact (List.prefix_append _ _).isInfix
    . rw [hline]
  have hlen := hlines t (htline.trans hin) ht
  have hlinez : '\x00' ∉ name_line := fun hmem => hz (hin.subset hmem)
  have hread : fgets szBuff (name_line ++ rest) = some (name_line, rest) := by
    rcases hline with hline | ⟨hline, hrest⟩
    . rw [hline, List.append_assoc]
      exact fgets_line ht hlen rest
    have hne : t ≠ [] := by
      rintro rfl
      contradiction
    rw [hline, hrest, List.append_nil]
    exact fgets_last ht hlen hne
  have hheader : getSectionName (cString name_line) = some pSection := by
    rw [cString_eq_self hlinez]
    rcases hline with hline | ⟨hline, _⟩
    . rw [hline, getSectionName_concat, hname]
    . rw [hline, hname]
  rw [hcut.eq, List.append_assoc, etcLocateSection2_block hcut.block hcut.none _, etcLocateSection2_step hread,
    if_pos hheader, List.nil_append]
  rw [hcut.eq] at hlines
  exact hlines.within ⟨[], name_line ++ rest, by simp⟩

theorem etcFindNextSection_spec (fp : Str) (hz : '\x00' ∉ fp)
    : items (etcFindNextSection fp) = dropEntries (items fp) ∧ '\x00' ∉ etcFindNextSection fp := by
  fun_induction etcFindNextSection fp with
  | case1 fp h =>
    rw [items_of_eof h]
    exact ⟨by rw [dropEntries]; simp, hz⟩
  | case2 fp line rest h hname =>
    rw [getSectionName_textOf, Option.isSome_iff_exists] at hname
    obtain ⟨name, hname⟩ := hname
    rw [seekBack_eq h hz]
    rw [items_of_fgets h, classify_of_name hname]
    exact ⟨by simp [dropEntries], hz⟩
  | case3 fp line rest h hname ih =>
    rw [getSectionName_textOf, Option.not_isSome_iff_eq_none] at hname
    rw [items_of_fgets h]
    rcases classify_of_name_none hname with hc | ⟨key, value, hc⟩
    . rw [hc]
      exact ih (not_mem_rest h hz)
    . rw [hc]
      exact ih (not_mem_rest h hz)

end Locate

section Bytes

variable {content before name_line rest : Str} {sect : Section}

theorem not_mem_etcWriteSection (hname : '\x00' ∉ sect.name)
    (hkeys : ∀ entry ∈ sect.keys, '\x00' ∉ entry.1 ∧ '\x00' ∉ entry.2)
    : '\x00' ∉ etcWriteSection (some sect) := by
  intro hmem
  unfold etcWriteSection printHeader printPair at hmem
  simp at hmem
  rcases hmem with hmem | ⟨key, value, hentry, hmem⟩
  . exact hname hmem
  have hkey := hkeys _ hentry
  rcases hmem with hmem | hmem
  . exact hkey.1 hmem
  . exact hkey.2 hmem

theorem save_new (hlocated : (etcLocateSection sect.name content []).status = .sectionNotFound)
    : saveSectionToEtcFile (some content) sect = (.ok, some (content ++ etcWriteSection (some sect)))
      ∧ removeSectionInEtcFile (some content) sect.name = (.sectionNotFound, some content) := by
  have hstatus := etcLocateSection2_status sect.name content [] []
  rw [hlocated] at hstatus
  unfold saveSectionToEtcFile removeSectionInEtcFile etcReviseSectionInEtcFile
  dsimp only
  rw [hstatus]
  exact ⟨rfl, rfl⟩

theorem save_old (hcut : Cut sect.name content before name_line rest) (hz : '\x00' ∉ content)
    (hlines : LinesShorter (ETC_MAXLINE - 1) content) (hwrite : '\x00' ∉ etcWriteSection (some sect))
    : saveSectionToEtcFile (some content) sect
        = (.ok, some (before ++ etcWriteSection (some sect) ++ etcFindNextSection rest)) := by
  have hlocated := etcLocateSection2_cut hcut hz hlines
  rw [hcut.eq, not_mem_append, not_mem_append] at hz
  have hrest := (etcFindNextSection_spec rest hz.2).2
  unfold saveSectionToEtcFile etcReviseSectionInEtcFile
  dsimp only
  rw [hlocated]
  dsimp only
  rw [if_neg Bool.false_ne_true, etcFileCopy_eq hrest, etcFileCopy_eq]
  rw [not_mem_append, not_mem_append]
  exact ⟨⟨hz.1.1, hwrite⟩, hrest⟩

theorem remove_old {pSection : Str} (hcut : Cut pSection content before name_line rest) (hz : '\x00' ∉ content)
    (hlines : LinesShorter (ETC_MAXLINE - 1) content)
    : removeSectionInEtcFile (some content) pSection = (.ok, some (before ++ etcFindNextSection rest)) := by
  have hlocated := etcLocateSection2_cut hcut hz hlines
  rw [hcut.eq, not_mem_append, not_mem_append] at hz
  have hrest := (etcFindNextSection_spec rest hz.2).2
  unfold removeSectionInEtcFile etcReviseSectionInEtcFile
  dsimp only
  rw [hlocated]
  dsimp only
  rw [if_pos rfl, etcFileCopy_eq hrest, etcFileCopy_eq]
  rw [not_mem_append]
  exact ⟨hz.1.1, hrest⟩

end Bytes

end MiniGui.Etc
