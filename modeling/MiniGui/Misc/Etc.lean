import MiniGui.Library.TextLines

namespace MiniGui

open List Option

namespace Etc

open TextLines

abbrev Str := Text

def ETC_MAXLINE : Nat := 1024

def szBuff : LineBuffer where
  size := ETC_MAXLINE
  two_le := by decide

inductive Status where
  | fileNotFound
  | sectionNotFound
  | keyNotFound
  | fileIoFailed
  | ok
deriving DecidableEq, Repr

def isBlank (c : Char) : Bool :=
  c == ' ' || c == '\t'

def skipBlanks (current : Str) : Str :=
  current.dropWhile isBlank

def sectionName (current : Str) : Str :=
  current.takeWhile fun c => c ≠ ']' && c ≠ '\n' && c ≠ ';' && c ≠ '#'

def getSectionName (located_sectionline : Str) : Option Str :=
  match skipBlanks located_sectionline with
  | ';' :: _ => none
  | '#' :: _ => none
  | '[' :: current => some (sectionName (skipBlanks current))
  | _ => none

inductive KeyLine where
  | nothing
  | header
  | pair (key value : Str)
deriving DecidableEq, Repr

def keyName (current : Str) : Str :=
  current.takeWhile fun c => c ≠ '=' && c ≠ '\n' && c ≠ ';' && c ≠ '#'

def trimRight (key : Str) : Str :=
  key.rdropWhile isBlank

def keyValue (tail : Str) : Str :=
  match tail with
  | '=' :: value => value.takeWhile (· ≠ '\n')
  | _ => []

def getKeyValue (key_line : Str) : KeyLine :=
  match skipBlanks key_line with
  | ';' :: _ => .nothing
  | '#' :: _ => .nothing
  | '[' :: _ => .header
  | '\n' :: _ => .nothing
  | [] => .nothing
  | current => .pair (trimRight (keyName current)) (keyValue (current.drop (keyName current).length))

def seekBack (bufflen : Nat) (line fp : Str) : Str :=
  line.drop (line.length - bufflen) ++ fp

structure Located where
  status : Status
  pValue : Str
  fp : Str
  bak_fp : Str
deriving DecidableEq, Repr

def etcLocateSection (pSection : Str) (fp bak_fp : Str) : Located :=
  match _h : fgets szBuff fp with
  | none => { status := .sectionNotFound, pValue := [], fp := fp, bak_fp := bak_fp }
  | some (line, rest) =>
    if getSectionName (cString line) = some pSection then
      { status := .ok, pValue := [], fp := rest, bak_fp := bak_fp ++ cString line }
    else
      etcLocateSection pSection rest (bak_fp ++ cString line)
termination_by fp.length
decreasing_by exact fgets_lt _h

def printPair (key value : Str) : Str :=
  key ++ '=' :: value ++ ['\n']

def etcLocateKeyValue (pKey : Str) (iLen : Nat) (fp bak_fp : Str) : Located :=
  match _h : fgets szBuff fp with
  | none => { status := .fileIoFailed, pValue := [], fp := fp, bak_fp := bak_fp }
  | some (line, rest) =>
    match getKeyValue (textOf line) with
    | .nothing => etcLocateKeyValue pKey iLen rest bak_fp
    | .header =>
      { status := .keyNotFound, pValue := [], fp := seekBack (cString line).length line rest, bak_fp := bak_fp }
    | .pair current value =>
      if current = pKey then
        { status := .ok, pValue := strncpy value iLen, fp := rest, bak_fp := bak_fp }
      else
        etcLocateKeyValue pKey iLen rest (if current ≠ [] then bak_fp ++ printPair current value else bak_fp)
termination_by fp.length
decreasing_by
  . exact fgets_lt _h
  . exact fgets_lt _h

def getValueFromEtcFile (etcFile : Option Str) (pSection : Option Str) (pKey : Str) (iLen : Nat) : Status × Str :=
  match etcFile with
  | none => (.fileNotFound, [])
  | some content =>
    let located_section : Located :=
      match pSection with
      | none => { status := .ok, pValue := [], fp := content, bak_fp := [] }
      | some name => etcLocateSection name content []
    if located_section.status ≠ .ok then
      (.sectionNotFound, [])
    else
      let located := etcLocateKeyValue pKey iLen located_section.fp []
      if located.status ≠ .ok then (.keyNotFound, []) else (.ok, located.pValue)

def etcCopyAndLocate (etc_fp : Str) (pSection : Str) (pKey : Str) : Located :=
  let located_section := etcLocateSection pSection etc_fp []
  if located_section.status ≠ .ok then
    located_section
  else
    let located := etcLocateKeyValue pKey 0 located_section.fp located_section.bak_fp
    if located.status ≠ .ok then { located with status := .keyNotFound } else located

def etcFileCopy (b : LineBuffer) (sf : Str) : Str :=
  (chunks b sf).flatMap cString

def copyBuff : LineBuffer where
  size := ETC_MAXLINE + 1
  two_le := by decide

def printHeader (name : Str) : Str :=
  '[' :: name ++ [']', '\n']

def setValueToEtcFile (etcFile : Option Str) (pSection pKey pValue : Str) : Status × Str :=
  match etcFile with
  | none => (.ok, printHeader pSection ++ printPair pKey pValue)
  | some content =>
    let located := etcCopyAndLocate content pSection pKey
    let tmp_fp :=
      match located.status with
      | .sectionNotFound => located.bak_fp ++ '\n' :: printHeader pSection ++ printPair pKey pValue
      | .keyNotFound => located.bak_fp ++ printPair pKey pValue ++ ['\n']
      | _ => located.bak_fp ++ printPair pKey pValue
    (.ok, etcFileCopy copyBuff (tmp_fp ++ etcFileCopy copyBuff located.fp))

structure Section where
  name : Str
  keys : List (Str × Str)
deriving DecidableEq, Repr

def etcNewKeyValue (psect : Section) (key value : Str) : Section :=
  { psect with keys := psect.keys ++ [(key, value)] }

/--
The section read so far: none as long as no header has been seen.
-/
def etcReadSection (fp : Str) (psect : Option Section) : Option Section × Str :=
  match _h : fgets szBuff fp with
  | none => (psect, fp)
  | some (line, rest) =>
    match psect with
    | none =>
      match getSectionName (textOf line) with
      | none => etcReadSection rest none
      | some sect_name => etcReadSection rest (some { name := sect_name, keys := [] })
    | some sect =>
      match getKeyValue (textOf line) with
      | .nothing => etcReadSection rest (some sect)
      | .header => (some sect, seekBack (cString line).length line rest)
      | .pair key value => etcReadSection rest (some (etcNewKeyValue sect key value))
termination_by fp.length
decreasing_by
  . exact fgets_lt _h
  . exact fgets_lt _h
  . exact fgets_lt _h
  . exact fgets_lt _h

abbrev EtcS := List (Option Section)

theorem seekBack_length (n : Nat) (line fp : Str)
    : (seekBack n line fp).length ≤ line.length + fp.length := by
  unfold seekBack
  rw [length_append, length_drop]
  omega

theorem etcReadSection_length (fp : Str) (psect : Option Section)
    : (etcReadSection fp psect).2.length ≤ fp.length
      ∧ (psect = none → (etcReadSection fp psect).1 ≠ none → (etcReadSection fp psect).2.length < fp.length) := by
  fun_induction etcReadSection fp psect with
  | case1 fp psect h =>
    simp
  | case2 fp line rest h hname ih =>
    have hlt := fgets_lt h
    exact ⟨by omega, fun _ hsome => by have := ih.2 rfl hsome; omega⟩
  | case3 fp line rest h name hname ih =>
    have hlt := fgets_lt h
    exact ⟨by omega, fun _ _ => by omega⟩
  | case4 fp line rest h sect hkey ih | case6 fp line rest h sect key value hkey ih =>
    have hlt := fgets_lt h
    exact ⟨by omega, by simp⟩
  | case5 fp line rest h sect hkey =>
    have hback := seekBack_length (cString line).length line rest
    rw [← fgets_append h, length_append]
    exact ⟨hback, by simp⟩

def etcReadSections (fp : Str) : EtcS :=
  match _h : (etcReadSection fp none).1 with
  | none => []
  | some sect => some sect :: etcReadSections (etcReadSection fp none).2
termination_by fp.length
decreasing_by
  apply (etcReadSection_length fp none).2 rfl
  simp [_h]

def loadEtcFile (etcFile : Option Str) : Option EtcS :=
  etcFile.map etcReadSections

def etcGetKey (keys : List (Str × Str)) (pKey : Str) : Option Str :=
  (keys.find? (·.1 = pKey)).map (·.2)

def etcSetKey (keys : List (Str × Str)) (pKey pValue : Str) : List (Str × Str) :=
  match keys with
  | [] => [(pKey, pValue)]
  | (key, value) :: keys => if key = pKey then (key, pValue) :: keys else (key, value) :: etcSetKey keys pKey pValue

def isNamed (pSection : Str) : Option Section → Bool
  | none => false
  | some sect => sect.name = pSection

def getValueFromEtc (petc : EtcS) (pSection pKey : Str) (iLen : Nat) : Status × Str :=
  match petc.find? (isNamed pSection) with
  | some (some sect) =>
    match etcGetKey sect.keys pKey with
    | none => (.keyNotFound, [])
    | some value => (.ok, strncpy value iLen)
  | _ => (.sectionNotFound, [])

def newSection (petc : EtcS) (sect : Section) : EtcS :=
  match petc.reverse.findIdx? (· = none) with
  | some i => petc.set (petc.length - 1 - i) (some sect)
  | none => petc ++ [some sect]

def findSectionInEtc (petc : EtcS) (pSection : Str) : EtcS :=
  if petc.any (isNamed pSection) then petc else newSection petc { name := pSection, keys := [] }

def setValueToEtc (petc : EtcS) (pSection pKey pValue : Str) : EtcS :=
  let petc := findSectionInEtc petc pSection
  match petc.findIdx? (isNamed pSection) with
  | some i =>
    petc.modify i fun
      | none => none
      | some sect => some { sect with keys := etcSetKey sect.keys pKey pValue }
  | none => petc

def removeSectionInEtc (petc : EtcS) (pSection : Str) : Status × EtcS :=
  match petc.findIdx? (isNamed pSection) with
  | none => (.sectionNotFound, petc)
  | some i => (.ok, petc.set i none)

def etcWriteSection (psect : Option Section) : Str :=
  match psect with
  | none => []
  | some sect => printHeader sect.name ++ sect.keys.flatMap (fun entry => printPair entry.1 entry.2) ++ ['\n']

def saveEtcToFile (petc : EtcS) : Str :=
  petc.flatMap etcWriteSection

inductive Item where
  | header (name : Str)
  | entry (key value : Str)
deriving DecidableEq, Repr

def classify (text : Str) : Option Item :=
  match getSectionName text with
  | some name => some (.header name)
  | none =>
    match getKeyValue text with
    | .pair key value => some (.entry key value)
    | _ => none

def items (fp : Str) : List Item :=
  parsed szBuff classify fp

def afterHeader (pSection : Str) : List Item → Option (List Item)
  | [] => none
  | .header name :: rest => if name = pSection then some rest else afterHeader pSection rest
  | .entry _ _ :: rest => afterHeader pSection rest

def entries : List Item → List (Str × Str)
  | .entry key value :: rest => (key, value) :: entries rest
  | _ => []

def dropEntries : List Item → List Item
  | .entry _ _ :: rest => dropEntries rest
  | rest => rest

def sections : List Item → List Section
  | [] => []
  | .header name :: rest => { name := name, keys := entries rest } :: sections rest
  | .entry _ _ :: rest => sections rest

def lookupIn (l : List Item) (pSection pKey : Str) (iLen : Nat) : Status × Str :=
  match afterHeader pSection l with
  | none => (.sectionNotFound, [])
  | some rest =>
    match etcGetKey (entries rest) pKey with
    | none => (.keyNotFound, [])
    | some value => (.ok, strncpy value iLen)

theorem sections_dropEntries (l : List Item) : sections (dropEntries l) = sections l := by
  induction l with
  | nil => rfl
  | cons item l ih =>
    cases item with
    | header name => rfl
    | entry key value => exact ih

theorem etcGetKey_cons (key value : Str) (keys : List (Str × Str)) (pKey : Str)
    : etcGetKey ((key, value) :: keys) pKey = if key = pKey then some value else etcGetKey keys pKey := by
  unfold etcGetKey
  rw [find?_cons]
  split
  next h => rw [if_pos (of_decide_eq_true h), map_some]
  next h => rw [if_neg (of_decide_eq_false h)]

theorem dropWhile_concat {p : Char → Bool} {c : Char} (hc : p c = false) (s : Str)
    : (s ++ [c]).dropWhile p = s.dropWhile p ++ [c] := by
  induction s with
  | nil => simp [hc]
  | cons a s ih =>
    rw [cons_append, dropWhile_cons, dropWhile_cons, ih]
    split
    . rfl
    . rfl

theorem takeWhile_concat {p : Char → Bool} {c : Char} (hc : p c = false) (s : Str)
    : (s ++ [c]).takeWhile p = s.takeWhile p := by
  induction s with
  | nil => simp [hc]
  | cons a s ih =>
    rw [cons_append, takeWhile_cons, takeWhile_cons, ih]

theorem stripNewline_cases (s : Str) : stripNewline s = s ∨ s = stripNewline s ++ ['\n'] := by
  unfold stripNewline
  split
  next h =>
    right
    obtain ⟨t, rfl⟩ := getLast?_eq_some_iff.mp h
    rw [dropLast_concat]
  next => exact .inl rfl

theorem getSectionName_concat (s : Str) : getSectionName (s ++ ['\n']) = getSectionName s := by
  unfold getSectionName skipBlanks
  rw [dropWhile_concat (by decide)]
  rcases hs : s.dropWhile isBlank with _ | ⟨c, t⟩
  . rfl
  rw [cons_append]
  split
  next heq =>
    injection heq with hc ht
    rw [hc]
    rfl
  next heq =>
    injection heq with hc ht
    rw [hc]
    rfl
  next heq =>
    injection heq with hc ht
    rw [hc, ← ht, dropWhile_concat (by decide)]
    unfold sectionName
    rw [takeWhile_concat (by decide)]
    rfl
  next h1 h2 h3 =>
    split
    next heq => rfl
    next heq => rfl
    next heq =>
      injection heq with hc ht
      rw [hc] at h3
      exact absurd rfl (h3 _)
    next => rfl

theorem getSectionName_textOf (line : Str)
    : getSectionName (cString line) = getSectionName (textOf line) := by
  unfold textOf
  rcases stripNewline_cases (cString line) with h | h
  . rw [h]
  . rw [← getSectionName_concat (stripNewline (cString line)), ← h]

theorem getKeyValue_header (s : Str) : getKeyValue s = .header ↔ (getSectionName s).isSome := by
  unfold getKeyValue getSectionName
  split <;> simp_all

theorem classify_of_name {s name : Str} (h : getSectionName s = some name)
    : classify s = some (.header name) := by
  unfold classify
  rw [h]

theorem classify_of_pair {s key value : Str} (h : getKeyValue s = .pair key value)
    : classify s = some (.entry key value) := by
  have hname : getSectionName s = none := by
    rw [← not_isSome_iff_eq_none, ← getKeyValue_header, h]
    simp
  unfold classify
  rw [hname, h]

theorem classify_of_nothing {s : Str} (h : getKeyValue s = .nothing) : classify s = none := by
  have hname : getSectionName s = none := by
    rw [← not_isSome_iff_eq_none, ← getKeyValue_header, h]
    simp
  unfold classify
  rw [hname, h]

theorem classify_of_header {s : Str} (h : getKeyValue s = .header)
    : ∃ name, getSectionName s = some name ∧ classify s = some (.header name) := by
  rw [getKeyValue_header, isSome_iff_exists] at h
  obtain ⟨name, hname⟩ := h
  exact ⟨name, hname, classify_of_name hname⟩

theorem classify_of_name_none {s : Str} (h : getSectionName s = none)
    : classify s = none ∨ ∃ key value, classify s = some (.entry key value) := by
  unfold classify
  rw [h]
  cases getKeyValue s with
  | nothing => exact .inl rfl
  | header => exact .inl rfl
  | pair key value => exact .inr ⟨key, value, rfl⟩

section Stream

variable {fp line rest : Str}

theorem items_of_fgets (h : fgets szBuff fp = some (line, rest))
    : items fp = (classify (textOf line)).toList ++ items rest :=
  parsed_of_fgets h

theorem items_nil : items [] = [] :=
  parsed_nil

theorem items_of_eof (h : fgets szBuff fp = none) : items fp = [] := by
  rw [fgets_eq_none.mp h, items_nil]

theorem etcLocateSection_spec (pSection fp bak_fp : Str)
    : match afterHeader pSection (items fp) with
      | none => (etcLocateSection pSection fp bak_fp).status = .sectionNotFound
      | some tail =>
        (etcLocateSection pSection fp bak_fp).status = .ok
          ∧ items (etcLocateSection pSection fp bak_fp).fp = tail := by
  fun_induction etcLocateSection pSection fp bak_fp with
  | case1 fp bak_fp h =>
    rw [items_of_eof h]
    rfl
  | case2 fp bak_fp line rest h hname =>
    rw [getSectionName_textOf] at hname
    rw [items_of_fgets h, classify_of_name hname]
    simp [afterHeader]
  | case3 fp bak_fp line rest h hname ih =>
    rw [getSectionName_textOf] at hname
    have hafter : afterHeader pSection (items fp) = afterHeader pSection (items rest) := by
      rw [items_of_fgets h]
      rcases hsome : getSectionName (textOf line) with _ | name
      . rcases classify_of_name_none hsome with hc | ⟨key, value, hc⟩
        . rw [hc]
          rfl
        . rw [hc]
          rfl
      rw [classify_of_name hsome]
      rw [hsome] at hname
      have hne : name ≠ pSection := fun heq => hname (congrArg some heq)
      exact if_neg hne
    rw [hafter]
    exact ih

theorem etcLocateKeyValue_spec (pKey : Str) (iLen : Nat) (fp bak_fp : Str)
    : match etcGetKey (entries (items fp)) pKey with
      | none => (etcLocateKeyValue pKey iLen fp bak_fp).status ≠ .ok
      | some value =>
        (etcLocateKeyValue pKey iLen fp bak_fp).status = .ok
          ∧ (etcLocateKeyValue pKey iLen fp bak_fp).pValue = strncpy value iLen := by
  fun_induction etcLocateKeyValue pKey iLen fp bak_fp with
  | case1 fp bak_fp h =>
    rw [items_of_eof h]
    simp [entries, etcGetKey]
  | case2 fp bak_fp line rest h hkey ih =>
    rw [items_of_fgets h, classify_of_nothing hkey]
    exact ih
  | case3 fp bak_fp line rest h hkey =>
    obtain ⟨name, _, hclass⟩ := classify_of_header hkey
    rw [items_of_fgets h, hclass]
    simp [entries, etcGetKey]
  | case4 fp bak_fp line rest h value hkey =>
    rw [items_of_fgets h, classify_of_pair hkey]
    rw [toList_some, singleton_append, entries, etcGetKey_cons, if_pos rfl]
    exact ⟨rfl, rfl⟩
  | case5 fp bak_fp line rest h current value hkey hne ih =>
    rw [items_of_fgets h, classify_of_pair hkey]
    rw [toList_some, singleton_append, entries, etcGetKey_cons, if_neg hne]
    exact ih

theorem getValueFromEtcFile_eq (content pSection pKey : Str) (iLen : Nat)
    : getValueFromEtcFile (some content) (some pSection) pKey iLen = lookupIn (items content) pSection pKey iLen := by
  have hsection := etcLocateSection_spec pSection content []
  unfold getValueFromEtcFile lookupIn
  dsimp only
  rcases hafter : afterHeader pSection (items content) with _ | tail
  . rw [hafter] at hsection
    rw [if_pos (by rw [hsection]; decide)]
  rw [hafter] at hsection
  have hkey := etcLocateKeyValue_spec pKey iLen (etcLocateSection pSection content []).fp []
  rw [if_neg (by rw [hsection.1]; decide)]
  rw [hsection.2] at hkey
  dsimp only
  rcases hget : etcGetKey (entries tail) pKey with _ | value
  . rw [hget] at hkey
    rw [if_pos hkey]
  . rw [hget] at hkey
    rw [if_neg (by rw [hkey.1]; decide), hkey.2]

theorem seekBack_eq (h : fgets szBuff fp = some (line, rest)) (hz : '\x00' ∉ fp)
    : seekBack (cString line).length line rest = fp := by
  have happend := fgets_append h
  have hline : '\x00' ∉ line := by
    intro hmem
    apply hz
    rw [← happend]
    exact mem_append_left _ hmem
  unfold seekBack
  rw [cString_eq_self hline, Nat.sub_self, drop_zero, happend]

theorem not_mem_rest (h : fgets szBuff fp = some (line, rest)) {c : Char} (hc : c ∉ fp)
    : c ∉ rest := by
  intro hmem
  apply hc
  rw [← fgets_append h]
  exact mem_append_right _ hmem

theorem etcReadSection_keys (fp : Str) (sect : Section) (hz : '\x00' ∉ fp)
    : (etcReadSection fp (some sect)).1 = some { sect with keys := sect.keys ++ entries (items fp) }
      ∧ items (etcReadSection fp (some sect)).2 = dropEntries (items fp)
      ∧ '\x00' ∉ (etcReadSection fp (some sect)).2 := by
  induction hn : fp.length using Nat.strong_induction_on generalizing fp sect with
  | _ n ih =>
    rw [etcReadSection]
    split
    next h =>
      rw [items_of_eof h]
      exact ⟨by simp [entries], by rw [dropEntries]; simp, hz⟩
    next line rest h =>
      have hlt := fgets_lt h
      have hrest := not_mem_rest h hz
      dsimp only
      split
      next hkey =>
        rw [items_of_fgets h, classify_of_nothing hkey]
        exact ih rest.length (by omega) rest sect hrest rfl
      next hkey =>
        obtain ⟨name, _, hclass⟩ := classify_of_header hkey
        rw [seekBack_eq h hz]
        rw [items_of_fgets h, hclass]
        exact ⟨by simp [entries], by simp [dropEntries], hz⟩
      next key value hkey =>
        rw [items_of_fgets h, classify_of_pair hkey]
        have hread := ih rest.length (by omega) rest (etcNewKeyValue sect key value) hrest rfl
        rw [hread.1]
        refine ⟨?_, hread.2⟩
        simp [etcNewKeyValue, entries]

theorem etcReadSection_spec (fp : Str) (hz : '\x00' ∉ fp) : match dropEntries (items fp) with
      | .header name :: tail =>
        (etcReadSection fp none).1 = some { name := name, keys := entries tail }
          ∧ items (etcReadSection fp none).2 = dropEntries tail
          ∧ '\x00' ∉ (etcReadSection fp none).2
      | _ => (etcReadSection fp none).1 = none := by
  generalize hp : (none : Option Section) = psect
  fun_induction etcReadSection fp psect with
  | case1 fp psect h =>
    rw [items_of_eof h, ← hp]
    rfl
  | case2 fp line rest h hname ih =>
    have hskip : dropEntries (items fp) = dropEntries (items rest) := by
      rw [items_of_fgets h]
      rcases classify_of_name_none hname with hc | ⟨key, value, hc⟩
      . rw [hc]
        rfl
      . rw [hc]
        rfl
    rw [hskip]
    exact ih (not_mem_rest h hz) rfl
  | case3 fp line rest h name hname ih =>
    rw [items_of_fgets h, classify_of_name hname]
    exact etcReadSection_keys rest { name := name, keys := [] } (not_mem_rest h hz)
  | case4 | case5 | case6 => contradiction

theorem dropEntries_ne (l tail : List Item) (key value : Str)
    : dropEntries l ≠ .entry key value :: tail := by
  fun_induction dropEntries l with
  | case1 _ _ _ ih => exact ih
  | case2 l hl =>
    intro heq
    exact hl _ _ _ heq

theorem etcReadSections_eq (fp : Str) (hz : '\x00' ∉ fp)
    : etcReadSections fp = (sections (items fp)).map some := by
  induction hn : fp.length using Nat.strong_induction_on generalizing fp with
  | _ n ih =>
    have hread := etcReadSection_spec fp hz
    rw [etcReadSections, ← sections_dropEntries]
    rcases hitems : dropEntries (items fp) with _ | ⟨item, tail⟩
    . rw [hitems] at hread
      split
      next => rfl
      next heq =>
        rw [hread] at heq
        contradiction
    cases item with
    | entry key value =>
      exact absurd hitems (dropEntries_ne _ _ _ _)
    | header name =>
      rw [hitems] at hread
      split
      next heq =>
        rw [hread.1] at heq
        contradiction
      next sect heq =>
        rw [hread.1] at heq
        injection heq with heq
        have hlt := (etcReadSection_length fp none).2 rfl (by simp [hread.1])
        rw [ih _ (by omega) (etcReadSection fp none).2 hread.2.2 rfl, hread.2.1, sections_dropEntries, ← heq]
        rfl

end Stream

end Etc

end MiniGui
