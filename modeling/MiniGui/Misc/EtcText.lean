import MiniGui.Misc.Etc

namespace MiniGui.Etc

open List

open TextLines

structure PrintableName (name : Str) : Prop where
  head : ∀ c, name.head? = some c → isBlank c = false
  chars : ∀ c ∈ name, c ≠ ']' ∧ c ≠ '\n' ∧ c ≠ ';' ∧ c ≠ '#' ∧ c ≠ '\x00'

structure PrintableKey (key : Str) : Prop where
  head : ∀ c, key.head? = some c → isBlank c = false ∧ c ≠ '['
  last : ∀ c, key.getLast? = some c → isBlank c = false
  chars : ∀ c ∈ key, c ≠ '=' ∧ c ≠ '\n' ∧ c ≠ ';' ∧ c ≠ '#' ∧ c ≠ '\x00'

structure SingleLine (value : Str) : Prop where
  newline : '\n' ∉ value
  terminator : '\x00' ∉ value

def SyntaxFree (s : Str) : Prop :=
  ∀ c ∈ s, c ∉ ['[', ']', '=', ';', '#', '\n', '\x00']

def NoLeadingBlank (s : Str) : Prop :=
  ∀ c, s.head? = some c → isBlank c = false

def NoTrailingBlank (s : Str) : Prop :=
  ∀ c, s.getLast? = some c → isBlank c = false

variable {name key s line value t : Str} {c : Char} {p : Char → Bool}

theorem SyntaxFree.printableName (h : SyntaxFree name) (hhead : NoLeadingBlank name)
    : PrintableName name := by
  constructor
  . exact hhead
  intro c hc
  have hchars := h c hc
  simp at hchars
  simp [hchars]

theorem SyntaxFree.printableKey (h : SyntaxFree key) (hhead : NoLeadingBlank key)
    (hlast : NoTrailingBlank key) : PrintableKey key := by
  constructor
  . intro c hc
    have hchars := h c (mem_of_mem_head? hc)
    simp at hchars
    exact ⟨hhead c hc, hchars.1⟩
  . exact hlast
  intro c hc
  have hchars := h c hc
  simp at hchars
  simp [hchars]

theorem not_mem_cString (buf : Str) : '\x00' ∉ cString buf := by
  unfold cString
  intro h
  have hnot := mem_takeWhile_imp h
  simp at hnot

theorem not_mem_textOf (buf : Str) : '\x00' ∉ textOf buf := by
  unfold textOf
  intro h
  apply not_mem_cString buf
  rcases stripNewline_cases (cString buf) with heq | heq
  . rwa [heq] at h
  . rw [heq]
    exact mem_append_left _ h

theorem skipBlanks_head (s : Str) : ∀ c, (skipBlanks s).head? = some c → isBlank c = false := by
  intro c hc
  unfold skipBlanks at hc
  have hhead := head?_dropWhile_not isBlank s
  rw [hc] at hhead
  exact hhead

theorem skipBlanks_eq_self (h : ∀ c, s.head? = some c → isBlank c = false) : skipBlanks s = s := by
  unfold skipBlanks
  cases s with
  | nil => rfl
  | cons c s =>
    apply dropWhile_cons_of_neg
    simp [h c rfl]

theorem mem_skipBlanks (h : c ∈ skipBlanks s) : c ∈ s :=
  (dropWhile_suffix isBlank).subset h

theorem takeWhile_head? (h : (s.takeWhile p).head? = some c) : s.head? = some c := by
  cases s with
  | nil => contradiction
  | cons a s =>
    rw [takeWhile_cons] at h
    split at h
    . exact h
    . contradiction

theorem getSectionName_printable (hz : '\x00' ∉ line) (h : getSectionName line = some name)
    : PrintableName name := by
  unfold getSectionName at h
  split at h
  . contradiction
  . contradiction
  next current hcurrent =>
    injection h with h
    constructor
    . intro c hc
      rw [← h] at hc
      exact skipBlanks_head current c (takeWhile_head? hc)
    intro c hc
    rw [← h] at hc
    have hstop := mem_takeWhile_imp hc
    have hmem := mem_skipBlanks ((List.takeWhile_prefix _).subset hc)
    have hne : c ≠ '\x00' := by
      rintro rfl
      apply hz
      apply mem_skipBlanks
      rw [hcurrent]
      exact mem_cons_of_mem _ hmem
    simp at hstop
    exact ⟨hstop.1.1.1, hstop.1.1.2, hstop.1.2, hstop.2, hne⟩
  . contradiction

theorem getKeyValue_pair (h : getKeyValue line = .pair key value)
    : ∃ c, (skipBlanks line).head? = some c ∧ c ≠ '['
        ∧ key = trimRight (keyName (skipBlanks line))
        ∧ value = keyValue ((skipBlanks line).drop (keyName (skipBlanks line)).length) := by
  unfold getKeyValue at h
  split at h
  . contradiction
  . contradiction
  . contradiction
  . contradiction
  . contradiction
  next h1 h2 h3 h4 h5 =>
    injection h with hkey hvalue
    rcases hs : skipBlanks line with _ | ⟨c, s⟩
    . exact absurd hs h5
    refine ⟨c, rfl, ?_, ?_, ?_⟩
    . rintro rfl
      exact h3 s hs
    . rw [← hs, hkey]
    . rw [← hs, hvalue]

theorem getKeyValue_printable (hz : '\x00' ∉ line) (h : getKeyValue line = .pair key value)
    : PrintableKey key ∧ SingleLine value := by
  obtain ⟨first, hfirst, hbracket, rfl, rfl⟩ := getKeyValue_pair h
  have hstart : trimRight (keyName (skipBlanks line)) <+: keyName (skipBlanks line) := rdropWhile_prefix _ _
  constructor
  . constructor
    . intro c hc
      have hhead : (skipBlanks line).head? = some c := by
        apply takeWhile_head?
        obtain ⟨t, ht⟩ := hstart
        unfold keyName at ht
        rw [← ht]
        unfold keyName at hc
        rw [head?_append, hc]
        rfl
      have heq : first = c := by
        rw [hfirst] at hhead
        injection hhead
      rw [← heq]
      exact ⟨skipBlanks_head line first hfirst, hbracket⟩
    . intro c hc
      have hne : trimRight (keyName (skipBlanks line)) ≠ [] := by
        intro hnil
        rw [hnil] at hc
        contradiction
      have hlast := rdropWhile_last_not isBlank (keyName (skipBlanks line)) hne
      rw [getLast?_eq_some_getLast hne] at hc
      injection hc with hc
      rw [← hc]
      exact eq_false_of_ne_true hlast
    intro c hc
    have hmem := hstart.subset hc
    have hstop := mem_takeWhile_imp hmem
    have hne : c ≠ '\x00' := by
      rintro rfl
      apply hz
      apply mem_skipBlanks
      exact (List.takeWhile_prefix _).subset hmem
    simp at hstop
    exact ⟨hstop.1.1.1, hstop.1.1.2, hstop.1.2, hstop.2, hne⟩
  have hvalue : ∀ tail : Str, '\n' ∉ keyValue tail ∧ ∀ c ∈ keyValue tail, c ∈ tail := by
    intro tail
    unfold keyValue
    split
    next value =>
      constructor
      . intro hmem
        have hnot := mem_takeWhile_imp hmem
        simp at hnot
      . intro c hc
        exact mem_cons_of_mem _ ((List.takeWhile_prefix _).subset hc)
    next => simp
  constructor
  . exact (hvalue _).1
  intro hmem
  apply hz
  apply mem_skipBlanks
  exact (drop_suffix _ _).subset ((hvalue _).2 _ hmem)

def printPairs (keys : List (Str × Str)) : Str :=
  keys.flatMap fun entry => printPair entry.1 entry.2

def pairs (keys : List (Str × Str)) : List Item :=
  keys.map fun entry => .entry entry.1 entry.2

theorem entries_pairs (keys : List (Str × Str)) (l : List Item)
    : entries (pairs keys ++ l) = keys ++ entries l := by
  induction keys with
  | nil => rfl
  | cons entry keys ih =>
    show (entry.1, entry.2) :: entries (pairs keys ++ l) = entry :: (keys ++ entries l)
    rw [ih]

theorem sections_pairs (keys : List (Str × Str)) (l : List Item)
    : sections (pairs keys ++ l) = sections l := by
  induction keys with
  | nil => rfl
  | cons entry keys ih => exact ih

theorem pairs_append_dropEntries (l : List Item) : pairs (entries l) ++ dropEntries l = l := by
  induction l with
  | nil => rfl
  | cons item l ih =>
    cases item with
    | header name => rfl
    | entry key value =>
      rw [entries, dropEntries]
      exact congrArg _ ih

theorem takeWhile_append_cons (hs : ∀ c ∈ s, p c = true) (hc : p c = false) (t : Str)
    : (s ++ c :: t).takeWhile p = s := by
  rw [takeWhile_append_of_pos hs, takeWhile_cons_of_neg (by simp [hc]), append_nil]

theorem getSectionName_printed (h : PrintableName name)
    : getSectionName ('[' :: name ++ [']']) = some name := by
  have hskip : skipBlanks ('[' :: name ++ [']']) = '[' :: (name ++ [']']) := rfl
  have hname : skipBlanks (name ++ [']']) = name ++ [']'] := by
    apply skipBlanks_eq_self
    intro c hc
    cases name with
    | nil =>
      injection hc with hc
      rw [← hc]
      decide
    | cons a s => exact h.head c hc
  unfold getSectionName
  rw [hskip]
  show some (sectionName (skipBlanks (name ++ [']']))) = some name
  rw [hname]
  unfold sectionName
  rw [takeWhile_append_cons]
  . intro c hc
    have hchars := h.chars c hc
    simp [hchars.1, hchars.2.1, hchars.2.2.1, hchars.2.2.2.1]
  . decide

theorem classify_printHeader (h : PrintableName name)
    : classify ('[' :: name ++ [']']) = some (.header name) :=
  classify_of_name (getSectionName_printed h)

theorem getKeyValue_printed (hkey : PrintableKey key) (hvalue : SingleLine value)
    : getKeyValue (key ++ '=' :: value) = .pair key value := by
  have hskip : skipBlanks (key ++ '=' :: value) = key ++ '=' :: value := by
    apply skipBlanks_eq_self
    intro c hc
    cases key with
    | nil =>
      injection hc with hc
      rw [← hc]
      decide
    | cons a s => exact (hkey.head c hc).1
  have hname : keyName (key ++ '=' :: value) = key := by
    unfold keyName
    rw [takeWhile_append_cons]
    . intro c hc
      have hchars := hkey.chars c hc
      simp [hchars.1, hchars.2.1, hchars.2.2.1, hchars.2.2.2.1]
    . decide
  have htrim : trimRight key = key := by
    unfold trimRight
    rw [rdropWhile_eq_self_iff]
    intro hne
    simp [hkey.last _ (getLast?_eq_some_getLast hne)]
  have hline : keyValue ('=' :: value) = value := by
    show value.takeWhile (· ≠ '\n') = value
    rw [takeWhile_eq_self_iff]
    intro c hc
    rw [decide_eq_true_iff]
    rintro rfl
    exact hvalue.newline hc
  have hfirst : ∀ c t, key ++ '=' :: value = c :: t → c ≠ ';' ∧ c ≠ '#' ∧ c ≠ '[' ∧ c ≠ '\n' := by
    intro c t heq
    cases key with
    | nil =>
      injection heq with hc _
      rw [← hc]
      decide
    | cons a s =>
      injection heq with hc _
      rw [← hc]
      have hchars := hkey.chars a mem_cons_self
      exact ⟨hchars.2.2.1, hchars.2.2.2.1, (hkey.head a rfl).2, hchars.2.1⟩
  unfold getKeyValue
  rw [hskip]
  split
  next heq => exact absurd rfl (hfirst _ _ heq).1
  next heq => exact absurd rfl (hfirst _ _ heq).2.1
  next heq => exact absurd rfl (hfirst _ _ heq).2.2.1
  next heq => exact absurd rfl (hfirst _ _ heq).2.2.2
  next heq => simp at heq
  next => rw [hname, drop_left, htrim, hline]

theorem classify_printPair (hkey : PrintableKey key) (hvalue : SingleLine value)
    : classify (key ++ '=' :: value) = some (.entry key value) :=
  classify_of_pair (getKeyValue_printed hkey hvalue)

theorem items_line (ht : '\n' ∉ t) (hz : '\x00' ∉ t) (hlen : t.length < ETC_MAXLINE) (r : Str)
    : items (t ++ '\n' :: r) = (classify t).toList ++ items r :=
  parsed_line rfl ht hz hlen r

theorem items_printHeader (h : PrintableName name) (hlen : (printHeader name).length ≤ ETC_MAXLINE)
    (r : Str) : items (printHeader name ++ r) = .header name :: items r := by
  have hsplit : printHeader name ++ r = ('[' :: name ++ [']']) ++ '\n' :: r := by
    simp [printHeader]
  unfold printHeader at hlen
  rw [hsplit, items_line _ _ _, classify_printHeader h]
  . rfl
  . intro hmem
    simp at hmem
    exact (h.chars _ hmem).2.1 rfl
  . intro hmem
    simp at hmem
    exact (h.chars _ hmem).2.2.2.2 rfl
  . simp at hlen ⊢
    omega

theorem items_printPair (hkey : PrintableKey key) (hvalue : SingleLine value)
    (hlen : (printPair key value).length ≤ ETC_MAXLINE) (r : Str)
    : items (printPair key value ++ r) = .entry key value :: items r := by
  have hsplit : printPair key value ++ r = (key ++ '=' :: value) ++ '\n' :: r := by
    simp [printPair]
  unfold printPair at hlen
  rw [hsplit, items_line _ _ _, classify_printPair hkey hvalue]
  . rfl
  . intro hmem
    simp at hmem
    rcases hmem with hmem | hmem
    . exact (hkey.chars _ hmem).2.1 rfl
    . exact hvalue.newline hmem
  . intro hmem
    simp at hmem
    rcases hmem with hmem | hmem
    . exact (hkey.chars _ hmem).2.2.2.2 rfl
    . exact hvalue.terminator hmem
  . simp at hlen ⊢
    omega

theorem items_pairs {keys : List (Str × Str)} (hkeys : ∀ entry ∈ keys, PrintableKey entry.1 ∧ SingleLine entry.2)
    (hfits : ∀ entry ∈ keys, (printPair entry.1 entry.2).length ≤ ETC_MAXLINE) (r : Str)
    : items (printPairs keys ++ r) = pairs keys ++ items r := by
  unfold printPairs
  induction keys with
  | nil => rfl
  | cons entry keys ih =>
    have hentry := hkeys entry mem_cons_self
    rw [flatMap_cons, append_assoc, items_printPair hentry.1 hentry.2 (hfits entry mem_cons_self), ih]
    . rfl
    . exact fun e he => hkeys e (mem_cons_of_mem entry he)
    . exact fun e he => hfits e (mem_cons_of_mem entry he)

theorem items_newline (r : Str) : items ('\n' :: r) = items r :=
  items_line (not_mem_nil) (not_mem_nil) (by decide) r

theorem getSectionName_length (h : getSectionName t = some name) : name.length < t.length := by
  unfold getSectionName at h
  split at h
  . contradiction
  . contradiction
  next current hcurrent =>
    injection h with h
    have hname : (sectionName (skipBlanks current)).length ≤ (skipBlanks current).length :=
      (List.takeWhile_prefix _).length_le
    have hskip : (skipBlanks current).length ≤ current.length := (dropWhile_suffix isBlank).length_le
    have hline : (skipBlanks t).length ≤ t.length := (dropWhile_suffix isBlank).length_le
    rw [hcurrent, length_cons] at hline
    rw [← h]
    omega
  . contradiction

theorem getKeyValue_length (h : getKeyValue t = .pair key value)
    : key.length + value.length < t.length ∨ value = [] ∧ key.length ≤ t.length ∧ '=' ∉ t := by
  obtain ⟨_, _, _, hkey, hvalue⟩ := getKeyValue_pair h
  have htrim : key.length ≤ (keyName (skipBlanks t)).length := by
    rw [hkey]
    exact (List.rdropWhile_prefix _ _).length_le
  have hline : (skipBlanks t).length ≤ t.length := (dropWhile_suffix isBlank).length_le
  have hname : keyName (skipBlanks t) <+: skipBlanks t := takeWhile_prefix _
  have hsplit := prefix_iff_eq_append.mp hname
  have hlen := congrArg List.length hsplit
  rw [length_append] at hlen
  rcases hdrop : (skipBlanks t).drop (keyName (skipBlanks t)).length with _ | ⟨c, w⟩
  . right
    rw [hdrop] at hvalue hlen hsplit
    rw [List.length_nil] at hlen
    refine ⟨hvalue, by omega, ?_⟩
    rw [append_nil] at hsplit
    intro hmem
    have hparts : t.takeWhile isBlank ++ skipBlanks t = t := takeWhile_append_dropWhile
    rw [← hparts, mem_append] at hmem
    rcases hmem with hmem | hmem
    . have hblank := mem_takeWhile_imp hmem
      revert hblank
      decide
    . rw [← hsplit] at hmem
      have hstop := mem_takeWhile_imp hmem
      simp at hstop
  left
  rw [hdrop] at hvalue hlen
  have hle : value.length ≤ w.length := by
    rw [hvalue]
    unfold keyValue
    split
    next heq =>
      injection heq with _ hw
      rw [hw]
      exact (List.takeWhile_prefix _).length_le
    next => exact Nat.zero_le _
  rw [length_cons] at hlen
  omega

theorem classify_eq_header (h : classify t = some (.header name))
    : getSectionName t = some name := by
  unfold classify at h
  split at h
  next heq =>
    injection h with h
    injection h with h
    rw [heq, h]
  next =>
    split at h
    . injection h with h
      contradiction
    . contradiction

theorem classify_eq_entry (h : classify t = some (.entry key value))
    : getKeyValue t = .pair key value := by
  unfold classify at h
  split at h
  next =>
    injection h with h
    contradiction
  next =>
    split at h
    next heq =>
      injection h with h
      injection h with hkey hvalue
      rw [heq, hkey, hvalue]
    . contradiction

theorem mem_items {fp : Str} {item : Item} (h : item ∈ items fp)
    : ∃ t, t <:+: fp ∧ '\n' ∉ t ∧ t.length < ETC_MAXLINE ∧ classify t = some item :=
  mem_parsed h

end MiniGui.Etc
