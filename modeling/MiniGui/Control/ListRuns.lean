import MiniGui.Control.ListNodes

namespace MiniGui.ListBox

open List Option

structure ListInv (s : ListBox) : Prop where
  nodes : NodesInv [] s
  count : s.itemCount = s.items.length
  keys : ∀ plbi ∈ s.items, plbi.key.isSome = true

def Failed (result : Int) : Prop :=
  result = lbErr ∨ result = lbErrSpace

def Inserted (s s' : ListBox) (string : List UInt8) (result : Int) : Prop :=
  0 ≤ result ∧ ∃ newItem, s'.lstGetItem result = some newItem ∧ newItem.key = some string
    ∧ newItem.node ∉ s.items.map (·.node)

def HasMemory (s : ListBox) (mem : LstMemory) : Prop :=
  mem.copied = true ∧ (s.freeList ≠ [] ∨ mem.node ≠ none)

def added (infos : List (ListBoxItemInfo × LstMemory)) : List (List UInt8) :=
  (infos.map (·.1.string)).takeWhile (· ≠ [])

section Messages

variable (style : LstStyle) (strCmp : StrCmp)

def MultiOk : Bool → ListBox → List (ListBoxItemInfo × LstMemory) → Prop
  | _, _, [] => True
  | started, s, (info, mem) :: rest =>
    info.string ≠ [] →
      s.MemoryOk mem ∧ (started = true → s.HasMemory mem)
        ∧ (s.HasMemory mem → MultiOk true (addItem style strCmp s (-1) info mem).1 rest)

def ContentOk (s : ListBox) : LbContent → Prop
  | .addString _ mem => s.MemoryOk mem
  | .insertString pos lParam mem =>
    s.MemoryOk mem ∧
      ∀ info ∈ lParam, ((style.checkbox || style.useicon) = true ∨ info.string ≠ []) → s.HasMemory mem →
        style.sort = true ∨ s.items = [] ∨ pos ≤ s.items.length
  | .setText pos str copied => copied = true → ∀ plbi ∈ s.lstGetItem pos, plbi.key = some str
  | .setItemData pos lParam copied => s.ItemDataOk style pos lParam copied
  | .multiAddItem lParam => ∀ infos ∈ lParam, MultiOk style strCmp false s infos
  | .deleteString _ | .resetContent => True

structure Sound (s : ListBox) (message : LbContent) (s' : ListBox) (result : Int) : Prop where
  failed : Failed result → s'.items = s.items
  added : ∀ lParam mem, message = .addString lParam mem → ¬Failed result →
    ∃ info ∈ lParam, Inserted s s' info.string result
  inserted : ∀ pos lParam mem, message = .insertString pos lParam mem → ¬Failed result →
    ∃ info ∈ lParam, Inserted s s' info.string result
  multiAdded : ∀ infos, message = .multiAddItem (some infos) → ¬Failed result →
    ∀ string ∈ (ListBox.added infos).getLast?, Inserted s s' string result

def contentRun (s : ListBox) (messages : List LbContent) : Option ListBox :=
  messages.foldlM (fun s message => (onContent style strCmp s message).map Prod.fst) s

def ContentRunOk : ListBox → List LbContent → Prop
  | _, [] => True
  | s, message :: messages =>
    s.ContentOk style strCmp message
      ∧ ∀ result ∈ onContent style strCmp s message, ContentRunOk result.1 messages

end Messages

variable {pos result : Int} {i : Nat} {items : List LstItem} {message : LbContent}

section Insertion

variable {style : LstStyle} {strCmp : StrCmp} {s : ListBox}

theorem not_failed_of_nonneg (hnonneg : 0 ≤ result) : ¬Failed result := by
  unfold Failed lbErr lbErrSpace
  omega

theorem lstAddNewItem_spec (style : LstStyle) (strCmp : StrCmp) {plbi : Nat} (hnodes : NodesInv [plbi] s)
    (hcount : s.itemCount = s.items.length)
    (hkeys : ∀ item ∈ s.items, item.key.isSome = true) (newItem : LstItem)
    (hnode : newItem.node = plbi)
    {string : List UInt8} (hkey : newItem.key = some string) (pos : Int)
    : ListInv (lstAddNewItem style strCmp s newItem pos).1 ∧ 0 ≤ (lstAddNewItem style strCmp s newItem pos).2
      ∧ (∀ item ∈ s.items, item ∈ (lstAddNewItem style strCmp s newItem pos).1.items)
      ∧ (style.sort = true ∨ s.items = [] ∨ pos ≤ s.items.length →
        Inserted s (lstAddNewItem style strCmp s newItem pos).1 string (lstAddNewItem style strCmp s newItem pos).2) := by
  have hfresh : newItem.node ∉ s.items.map (·.node) := by
    have hnodup : (plbi :: (s.items.map (·.node) ++ s.freeList)).Nodup :=
      hnodes.nodes.nodup_iff.mpr hnodes.nodup
    rw [hnode]
    exact fun hmem => (nodup_cons.mp hnodup).1 (mem_append_left _ hmem)
  -- the list with the item at `i`
  have hput : ∀ i, i ≤ s.items.length →
      ListInv { s with items := s.items.insertIdx i newItem, itemCount := s.itemCount + 1 }
        ∧ Inserted s { s with items := s.items.insertIdx i newItem, itemCount := s.itemCount + 1 } string i := by
    intro i hi
    refine ⟨⟨hnodes.insert hnode hi _, ?_, fun item hitem => ?_⟩, Int.natCast_nonneg i, newItem, ?_, hkey, hfresh⟩
    · rw [length_insertIdx_of_le_length hi, hcount]
      rfl
    · rcases (mem_insertIdx hi).mp hitem with rfl | hmem
      · rw [hkey]
        rfl
      · exact hkeys item hmem
    · simp only [lstGetItem, Int.toNat_natCast]
      rw [getElem?_insertIdx_self, if_pos hi]
  have hfront := hput 0 (Nat.zero_le _)
  rw [insertIdx_zero] at hfront
  unfold lstAddNewItem
  rcases insPosItem_spec style strCmp newItem pos s.items with
    ⟨plbi, hlt, heq⟩ | heq | ⟨hsort, hne, hpast, heq⟩
  · simp only [heq]
    have hafter := hput (plbi + 1) hlt
    exact ⟨hafter.1, by omega, fun item hitem => (mem_insertIdx hlt).mpr (.inr hitem),
      fun _ => by simpa using hafter.2⟩
  · simp only [heq]
    exact ⟨hfront.1, by omega, fun item hitem => mem_cons_of_mem _ hitem, fun _ => by simpa using hfront.2⟩
  · simp only [heq]
    refine ⟨hfront.1, by omega, fun item hitem => mem_cons_of_mem _ hitem, fun hok => ?_⟩
    rcases hok with hsorted | hempty | hle
    · rw [hsort] at hsorted
      cases hsorted
    · exact absurd hempty hne
    · omega

variable {mem : LstMemory} {infos : List (ListBoxItemInfo × LstMemory)}

theorem addItem_spec (style : LstStyle) (strCmp : StrCmp) (h : ListInv s) (pos : Int) (info : ListBoxItemInfo) (hmem : s.MemoryOk mem)
    : ListInv (addItem style strCmp s pos info mem).1
      ∧ ((¬s.HasMemory mem ∧ (addItem style strCmp s pos info mem).2 = lbErrSpace
          ∧ (addItem style strCmp s pos info mem).1.items = s.items)
        ∨ s.HasMemory mem ∧ 0 ≤ (addItem style strCmp s pos info mem).2
          ∧ (∀ item ∈ s.items, item ∈ (addItem style strCmp s pos info mem).1.items)
          ∧ (style.sort = true ∨ s.items = [] ∨ pos ≤ s.items.length →
            Inserted s (addItem style strCmp s pos info mem).1 info.string
              (addItem style strCmp s pos info mem).2)) := by
  unfold addItem
  cases halloc : s.lstAllocItem mem.node with
  | none =>
    refine ⟨h, .inl ⟨?_, rfl, rfl⟩⟩
    rintro ⟨-, hnode⟩
    unfold lstAllocItem at halloc
    split at halloc
    · cases halloc
    · rename_i hfree
      exact hnode.elim (fun hne => hne hfree) fun hne => hne (map_eq_none_iff.mp halloc)
  | some alloc =>
    obtain ⟨plbi, s'⟩ := alloc
    have hheld := h.nodes.alloc hmem halloc
    have hnode : s.freeList ≠ [] ∨ mem.node ≠ none := by
      unfold lstAllocItem at halloc
      split at halloc
      · rename_i hfree
        exact .inl (by rw [hfree]; exact cons_ne_nil _ _)
      · exact .inr fun hnone => by rw [hnone] at halloc; cases halloc
    obtain ⟨freeList, heap, rfl⟩ := lstAllocItem_eq halloc
    by_cases hcopied : mem.copied = true
    · simp only [if_pos hcopied]
      obtain ⟨hinv, hnonneg, hkept, hinserted⟩ := lstAddNewItem_spec style strCmp hheld h.count h.keys
        (newItem style plbi info) rfl rfl pos
      exact ⟨hinv, .inr ⟨⟨hcopied, hnode⟩, hnonneg, hkept, hinserted⟩⟩
    · simp only [if_neg hcopied]
      have hreleased := hheld.release
      obtain ⟨freeList', heap', heq⟩ := lstFreeItem_eq ({ s with freeList, heap } : ListBox) plbi
      rw [heq] at hreleased ⊢
      exact ⟨⟨hreleased, h.count, h.keys⟩, .inl ⟨fun hhas => hcopied hhas.1, trivial, rfl⟩⟩

theorem addString_sound (style : LstStyle) (strCmp : StrCmp) (h : ListInv s) (pos : Int)
    (lParam : Option ListBoxItemInfo) (hmem : s.MemoryOk mem)
    (hpos : ∀ info ∈ lParam, ((style.checkbox || style.useicon) = true ∨ info.string ≠ []) → s.HasMemory mem →
      style.sort = true ∨ s.items = [] ∨ pos ≤ s.items.length)
    : ListInv (addString style strCmp s pos lParam mem).1
      ∧ (Failed (addString style strCmp s pos lParam mem).2 →
        (addString style strCmp s pos lParam mem).1.items = s.items)
      ∧ (¬Failed (addString style strCmp s pos lParam mem).2 →
        ∃ info ∈ lParam, Inserted s (addString style strCmp s pos lParam mem).1 info.string
          (addString style strCmp s pos lParam mem).2) := by
  unfold addString
  cases lParam with
  | none => exact ⟨h, fun _ => rfl, fun hok => absurd (.inl rfl) hok⟩
  | some info =>
    by_cases hempty : (style.checkbox || style.useicon) = false ∧ info.string = []
    · simp only [if_pos hempty]
      exact ⟨h, fun _ => trivial, fun hok => absurd (.inl rfl) hok⟩
    simp only [if_neg hempty]
    obtain ⟨hinv, ⟨-, hfail, hsame⟩ | ⟨hhas, hnonneg, -, hinserted⟩⟩ :=
      addItem_spec style strCmp h pos info hmem
    · exact ⟨hinv, fun _ => hsame, fun hok => absurd (.inr hfail) hok⟩
    · refine ⟨hinv, fun hfailed => absurd hfailed (not_failed_of_nonneg hnonneg), fun _ => ⟨info, rfl, hinserted ?_⟩⟩
      refine hpos info rfl ?_ hhas
      by_cases hplain : (style.checkbox || style.useicon) = true
      · exact .inl hplain
      · exact .inr fun hnil => hempty ⟨by simpa using hplain, hnil⟩

theorem multiAddItem_of_added_nil (hnil : added infos = []) (pos : Int)
    : multiAddItem style strCmp s pos infos = (s, pos) := by
  cases infos with
  | nil => rfl
  | cons first rest =>
    obtain ⟨info, mem⟩ := first
    rw [multiAddItem]
    by_cases hempty : info.string = []
    · rw [if_pos hempty]
    · simp [added, hempty] at hnil

theorem multiAddItem_sound {started : Bool} (h : ListInv s)
    (hok : MultiOk style strCmp started s infos) (hpos : ¬Failed pos)
    : ListInv (multiAddItem style strCmp s pos infos).1
      ∧ (Failed (multiAddItem style strCmp s pos infos).2 →
        started = false ∧ (multiAddItem style strCmp s pos infos).1.items = s.items)
      ∧ (¬Failed (multiAddItem style strCmp s pos infos).2 → ∀ string ∈ (added infos).getLast?,
        Inserted s (multiAddItem style strCmp s pos infos).1 string (multiAddItem style strCmp s pos infos).2) := by
  induction infos generalizing s started pos with
  | nil => exact ⟨h, fun hfail => absurd hfail hpos, fun _ string hstring => by cases hstring⟩
  | cons first rest ih =>
    obtain ⟨info, mem⟩ := first
    by_cases hempty : info.string = []
    · have hnil : added ((info, mem) :: rest) = [] := by simp [added, hempty]
      rw [multiAddItem_of_added_nil hnil, hnil]
      exact ⟨h, fun hfail => absurd hfail hpos, fun _ string hstring => by cases hstring⟩
    have hcons : added ((info, mem) :: rest) = info.string :: added rest := by simp [added, hempty]
    obtain ⟨hmem, hstarted, hrest⟩ := hok hempty
    rw [multiAddItem, if_neg hempty, hcons]
    obtain ⟨hinv, ⟨hnot, hfail, hsame⟩ | ⟨hhas, hnonneg, hkept, hinserted⟩⟩ :=
      addItem_spec style strCmp h (-1) info hmem
    · simp only [if_pos hfail]
      refine ⟨hinv, fun _ => ⟨?_, hsame⟩, fun hok => absurd (.inr hfail) hok⟩
      cases started with
      | false => rfl
      | true => exact absurd (hstarted rfl) hnot
    · have hnext : (addItem style strCmp s (-1) info mem).2 ≠ lbErrSpace := by
        unfold lbErrSpace
        omega
      simp only [if_neg hnext]
      obtain ⟨hinv', hfail', hinserted'⟩ := ih hinv (hrest hhas) (not_failed_of_nonneg hnonneg)
      refine ⟨hinv', fun hfail => absurd (hfail' hfail).1 (by decide), fun hok string hstring => ?_⟩
      cases hadded : added rest with
      | nil =>
        rw [hadded] at hstring
        cases hstring
        rw [multiAddItem_of_added_nil hadded]
        exact hinserted (.inr (.inr (by omega)))
      | cons next strings =>
        rw [hadded, getLast?_cons_cons, ← hadded] at hstring
        obtain ⟨hpos', newItem, hget, hkey, hfresh⟩ := hinserted' hok string hstring
        refine ⟨hpos', newItem, hget, hkey, fun hin => hfresh ?_⟩
        obtain ⟨item, hitem, hnode⟩ := List.mem_map.mp hin
        exact List.mem_map.mpr ⟨item, hkept item hitem, hnode⟩

end Insertion

section Sound

variable {style : LstStyle} {strCmp : StrCmp} {s : ListBox}

theorem removal_eq (s : ListBox) (delete : Int)
    : ∃ itemTop itemHilighted, (s.topAfterRemoval delete).hilightAfterRemoval.hilightInView =
        { s with itemTop, itemHilighted } := by
  have htop : ∃ itemTop, s.topAfterRemoval delete = { s with itemTop } := by
    unfold topAfterRemoval
    split_ifs <;> exact ⟨_, rfl⟩
  have hhilight : ∀ s' : ListBox, ∃ itemHilighted, s'.hilightAfterRemoval = { s' with itemHilighted } := by
    intro s'
    unfold hilightAfterRemoval
    split_ifs <;> exact ⟨_, rfl⟩
  have hview : ∀ s' : ListBox, ∃ itemHilighted, s'.hilightInView = { s' with itemHilighted } := by
    intro s'
    unfold hilightInView
    dsimp only
    split_ifs <;> exact ⟨_, rfl⟩
  obtain ⟨itemTop, heq⟩ := htop
  obtain ⟨_, heq'⟩ := hhilight { s with itemTop }
  obtain ⟨itemHilighted, heq''⟩ := hview (s.topAfterRemoval delete).hilightAfterRemoval
  refine ⟨itemTop, itemHilighted, ?_⟩
  rw [heq'', heq, heq']

theorem deleteString_sound (h : ListInv s) (delete : Int)
    : ListInv (s.deleteString delete).1 ∧ (Failed (s.deleteString delete).2 → (s.deleteString delete).1.items = s.items)
      ∧ ((s.deleteString delete).1.items).Sublist s.items := by
  unfold deleteString
  by_cases hin : 0 ≤ delete ∧ delete < s.itemCount
  · obtain ⟨removed, hget, heq⟩ := lstRemoveItem_eq h.count hin.1 hin.2
    have hlen := (List.getElem?_eq_some_iff.mp hget).1
    have hreleased := (h.nodes.remove hget).release
    rw [heq]
    obtain ⟨freeList, heap, hfree⟩ := lstFreeItem_eq
      ({ s with items := s.items.eraseIdx delete.toNat } : ListBox) removed.node
    rw [hfree] at hreleased
    simp only [hfree]
    obtain ⟨itemTop, itemHilighted, hview⟩ := removal_eq
      ({ s with
          items := s.items.eraseIdx delete.toNat
          freeList
          heap
          itemCount := s.itemCount - 1 } : ListBox) delete
    rw [hview]
    refine ⟨⟨⟨hreleased.nodes, hreleased.nodup, hreleased.free, hreleased.outside⟩, ?_, fun plbi hplbi => ?_⟩,
      fun hfail => absurd hfail (not_failed_of_nonneg (Int.le_refl 0)), eraseIdx_sublist _ _⟩
    · have hcount := h.count
      change s.itemCount - 1 = ((s.items.eraseIdx delete.toNat).length : Int)
      rw [length_eraseIdx_of_lt hlen]
      omega
    · exact h.keys plbi (mem_of_mem_eraseIdx hplbi)
  · have heq : s.lstRemoveItem delete = none := by rw [lstRemoveItem, if_pos (by omega)]
    rw [heq]
    exact ⟨h, fun _ => rfl, Sublist.refl _⟩

variable {f : LstItem → LstItem} {copied : Bool}

theorem ListInv.modify (h : ListInv s) (hnode : ∀ plbi, (f plbi).node = plbi.node)
    (hkey : ∀ plbi, plbi.key.isSome = true → (f plbi).key.isSome = true) (pos : Int) : ListInv (s.setItem pos f) := by
  refine ⟨h.nodes.modify hnode pos, ?_, forall_mem_modify h.keys hkey pos.toNat⟩
  rw [setItem, length_modify]
  exact h.count

theorem modify_eq_self {plbi : LstItem}
    (hget : items[i]? = some plbi) (hsame : f plbi = plbi) : items.modify i f = items := by
  refine ext_getElem? fun j => ?_
  rw [getElem?_modify]
  by_cases hij : i = j
  · subst hij
    rw [hget]
    simp [hsame]
  · simp [hij]

theorem setText_sound (h : ListInv s) {str : List UInt8}
    (hok : copied = true → ∀ plbi ∈ s.lstGetItem pos, plbi.key = some str)
    : ListInv (s.setText pos str copied).1 ∧ (s.setText pos str copied).1.items = s.items := by
  unfold setText
  cases hget : s.lstGetItem pos with
  | none => exact ⟨h, rfl⟩
  | some plbi =>
    by_cases hcopied : copied = true
    · rw [if_pos hcopied]
      refine ⟨h.modify (f := fun plbi => { plbi with key := some str }) (fun _ => rfl) (fun _ _ => rfl) pos, ?_⟩
      have hkey := hok hcopied plbi hget
      refine modify_eq_self hget ?_
      rw [← hkey]
    · rw [if_neg hcopied]
      exact ⟨h, rfl⟩

theorem setItemData_sound (h : ListInv s) {lParam : Option ListBoxItemInfo}
    (hok : s.ItemDataOk style pos lParam copied)
    : ∃ result, s.setItemData style pos lParam copied = some result ∧ ListInv result.1
        ∧ (Failed result.2 → result.1.items = s.items) := by
  unfold setItemData
  by_cases hplain : (style.checkbox || style.useicon) = false
  · rw [if_pos hplain]
    exact ⟨_, rfl, h, fun _ => rfl⟩
  rw [if_neg hplain]
  cases hget : s.lstGetItem pos with
  | none => exact ⟨_, rfl, h, fun _ => rfl⟩
  | some plbi =>
    cases lParam with
    | none => exact ⟨_, rfl, h, fun _ => rfl⟩
    | some info =>
      have hmarks : ListInv (s.setItem pos (setItemMarks style info)) :=
        h.modify (f := setItemMarks style info) (fun _ => rfl) (fun _ hkey => hkey) pos
      have hdone : ¬Failed lbOkay := not_failed_of_nonneg (Int.le_refl 0)
      dsimp only
      by_cases hempty : info.string = []
      · rw [if_pos hempty]
        exact ⟨_, rfl, hmarks, fun hfail => absurd hfail hdone⟩
      rw [if_neg hempty]
      obtain ⟨key, hkey⟩ := isSome_iff_exists.mp (h.keys plbi (mem_of_getElem? hget))
      have hroom : key.length ≥ info.string.length ∨ copied = true := by
        by_cases hlonger : key.length < info.string.length
        · exact .inr (hok (eq_true_of_ne_false hplain) plbi hget key hkey info rfl hlonger)
        · exact .inl (by omega)
      rw [hkey, map_some, if_pos hroom]
      exact ⟨_, rfl,
        hmarks.modify (f := fun plbi => { plbi with key := some info.string }) (fun _ => rfl) (fun _ _ => rfl) pos,
        fun hfail => absurd hfail hdone⟩

theorem ListInv.reset (h : ListInv s) : ListInv s.lstResetListBoxContent :=
  ⟨h.nodes.reset, rfl, fun plbi hplbi => by cases hplbi⟩

theorem Sound.other {s' : ListBox} (hfail : Failed result → s'.items = s.items)
    (hadd : ∀ lParam mem, message ≠ .addString lParam mem)
    (hinsert : ∀ pos lParam mem, message ≠ .insertString pos lParam mem)
    (hmulti : ∀ infos, message ≠ .multiAddItem (some infos)) : Sound s message s' result :=
  ⟨hfail, fun lParam mem heq => absurd heq (hadd lParam mem),
    fun pos lParam mem heq => absurd heq (hinsert pos lParam mem), fun infos heq => absurd heq (hmulti infos)⟩

theorem onContent_sound (h : ListInv s) (hok : s.ContentOk style strCmp message)
    : ∃ result, s.onContent style strCmp message = some result ∧ ListInv result.1
        ∧ Sound s message result.1 result.2 := by
  cases message with
  | addString lParam mem =>
    obtain ⟨hinv, hfail, hadded⟩ := addString_sound style strCmp h (-1) lParam hok
      fun _ _ _ _ => .inr (.inr (by omega))
    refine ⟨_, rfl, hinv, ⟨hfail, ?_, ?_, ?_⟩⟩
    · rintro _ _ ⟨⟩
      exact hadded
    · rintro _ _ _ ⟨⟩
    · rintro _ ⟨⟩
  | insertString pos lParam mem =>
    obtain ⟨hinv, hfail, hadded⟩ := addString_sound style strCmp h pos lParam hok.1 hok.2
    refine ⟨_, rfl, hinv, ⟨hfail, ?_, ?_, ?_⟩⟩
    · rintro _ _ ⟨⟩
    · rintro _ _ _ ⟨⟩
      exact hadded
    · rintro _ ⟨⟩
  | deleteString delete =>
    obtain ⟨hinv, hfail, -⟩ := deleteString_sound h delete
    exact ⟨_, rfl, hinv, Sound.other hfail nofun nofun nofun⟩
  | resetContent =>
    have hdone : ¬Failed 0 := not_failed_of_nonneg (Int.le_refl 0)
    exact ⟨_, rfl, h.reset, Sound.other (fun hfail => absurd hfail hdone) nofun nofun nofun⟩
  | setText pos str copied =>
    obtain ⟨hinv, hsame⟩ := setText_sound h hok
    exact ⟨_, rfl, hinv, Sound.other (fun _ => hsame) nofun nofun nofun⟩
  | setItemData pos lParam copied =>
    obtain ⟨result, heq, hinv, hfail⟩ := setItemData_sound h hok
    exact ⟨result, heq, hinv, Sound.other hfail nofun nofun nofun⟩
  | multiAddItem lParam =>
    cases lParam with
    | none => exact ⟨_, rfl, h, Sound.other (fun _ => rfl) nofun nofun nofun⟩
    | some infos =>
      obtain ⟨hinv, hfail, hadded⟩ := multiAddItem_sound h (hok infos rfl) (show ¬Failed (-1) by unfold Failed; decide)
      refine ⟨_, rfl, hinv, ⟨fun hfailed => (hfail hfailed).2, ?_, ?_, ?_⟩⟩
      · rintro _ _ ⟨⟩
      · rintro _ _ _ ⟨⟩
      · rintro _ ⟨⟩
        exact hadded

end Sound

def AddsOrDeletes : LbContent → Prop
  | .addString _ _ | .insertString _ _ _ | .multiAddItem _ | .deleteString _ | .resetContent => True
  | .setText _ _ _ | .setItemData _ _ _ => False

structure TotalPreorder (strCmp : StrCmp) : Prop where
  swap : ∀ a b, strCmp (some a) (some b) (-1) ≤ 0 ↔ 0 ≤ strCmp (some b) (some a) (-1)
  trans : ∀ a b c, strCmp (some a) (some b) (-1) ≤ 0 → strCmp (some b) (some c) (-1) ≤ 0 →
    strCmp (some a) (some c) (-1) ≤ 0

def ItemLe (strCmp : StrCmp) (a b : LstItem) : Prop :=
  strCmp a.key b.key (-1) ≤ 0

structure Sorted (strCmp : StrCmp) (items : List LstItem) : Prop where
  keys : ∀ plbi ∈ items, plbi.key.isSome = true
  pairwise : items.Pairwise (ItemLe strCmp)

section Sorting

variable {style : LstStyle} {strCmp : StrCmp} {s : ListBox}

theorem TotalPreorder.le_of_not_lt (hcmp : TotalPreorder strCmp) {a b : LstItem} (ha : a.key.isSome = true)
    (hb : b.key.isSome = true) (hnot : ¬strCmp a.key b.key (-1) < 0) : ItemLe strCmp b a := by
  obtain ⟨key, hkey⟩ := isSome_iff_exists.mp ha
  obtain ⟨key', hkey'⟩ := isSome_iff_exists.mp hb
  rw [hkey, hkey'] at hnot
  rw [ItemLe, hkey, hkey']
  exact (hcmp.swap key' key).mpr (by omega)

theorem TotalPreorder.le_trans (hcmp : TotalPreorder strCmp) {a b c : LstItem} (ha : a.key.isSome = true)
    (hb : b.key.isSome = true) (hc : c.key.isSome = true) (hab : ItemLe strCmp a b) (hbc : ItemLe strCmp b c)
    : ItemLe strCmp a c := by
  obtain ⟨key, hkey⟩ := isSome_iff_exists.mp ha
  obtain ⟨key', hkey'⟩ := isSome_iff_exists.mp hb
  obtain ⟨key'', hkey''⟩ := isSome_iff_exists.mp hc
  rw [ItemLe, hkey, hkey'] at hab
  rw [ItemLe, hkey', hkey''] at hbc
  rw [ItemLe, hkey, hkey'']
  exact hcmp.trans key key' key'' hab hbc

theorem Sorted.sublist {items' : List LstItem} (h : Sorted strCmp items) (hsub : items'.Sublist items)
    : Sorted strCmp items' :=
  ⟨fun plbi hplbi => h.keys plbi (hsub.subset hplbi), h.pairwise.sublist hsub⟩

theorem Sorted.cons (hcmp : TotalPreorder strCmp) {items : List LstItem} {head newItem : LstItem}
    (h : Sorted strCmp (head :: items)) (hkey : newItem.key.isSome = true) (hle : ItemLe strCmp newItem head)
    : Sorted strCmp (newItem :: head :: items) := by
  refine ⟨fun plbi hplbi => ?_, pairwise_cons.mpr ⟨fun plbi hplbi => ?_, h.pairwise⟩⟩
  · rcases mem_cons.mp hplbi with rfl | hmem
    · exact hkey
    · exact h.keys plbi hmem
  · rcases mem_cons.mp hplbi with rfl | hmem
    · exact hle
    · exact hcmp.le_trans hkey (h.keys head mem_cons_self) (h.keys plbi hplbi) hle
        ((pairwise_cons.mp h.pairwise).1 plbi hmem)

variable {newItem : LstItem}

theorem Sorted.cons_insert {head : LstItem}
    (h : Sorted strCmp (head :: items)) (hi : i ≤ items.length) (hle : ItemLe strCmp head newItem)
    (hrest : Sorted strCmp (items.insertIdx i newItem)) : Sorted strCmp (head :: items.insertIdx i newItem) := by
  refine ⟨fun plbi hplbi => ?_, pairwise_cons.mpr ⟨fun plbi hplbi => ?_, hrest.pairwise⟩⟩
  · rcases mem_cons.mp hplbi with rfl | hmem
    · exact h.keys plbi mem_cons_self
    · exact hrest.keys plbi hmem
  · rcases (mem_insertIdx hi).mp hplbi with rfl | hmem
    · exact hle
    · exact (pairwise_cons.mp h.pairwise).1 plbi hmem

section

variable (hcmp : TotalPreorder strCmp)
include hcmp

theorem Sorted.insert (h : Sorted strCmp items) (hkey : newItem.key.isSome = true)
    : Sorted strCmp (items.insertIdx (sortedPos strCmp newItem.key items) newItem) := by
  induction items with
  | nil =>
    refine ⟨fun plbi hplbi => ?_, pairwise_singleton _ _⟩
    rw [mem_singleton.mp hplbi]
    exact hkey
  | cons next rest ih =>
    rw [sortedPos]
    by_cases hle : strCmp newItem.key next.key (-1) ≤ 0
    · rw [if_pos hle]
      exact h.cons hcmp hkey hle
    · rw [if_neg hle, insertIdx_succ_cons]
      have hrest := ih (h.sublist (sublist_cons_self next rest))
      have hnext := h.keys next mem_cons_self
      have hbelow : ItemLe strCmp next newItem := hcmp.le_of_not_lt hkey hnext (by omega)
      exact h.cons_insert (sortedPos_le strCmp newItem.key rest) hbelow hrest

variable (hsort : style.sort = true)
include hsort

variable (h : Sorted strCmp s.items)
include h

theorem lstAddNewItem_sorted (newItem : LstItem) (hkey : newItem.key.isSome = true) (pos : Int)
    : Sorted strCmp (lstAddNewItem style strCmp s newItem pos).1.items := by
  unfold lstAddNewItem
  cases hitems : s.items with
  | nil =>
    refine ⟨fun plbi hplbi => ?_, pairwise_singleton _ _⟩
    rw [mem_singleton.mp hplbi]
    exact hkey
  | cons head rest =>
    rw [hitems] at h
    by_cases hfront : strCmp newItem.key head.key (-1) < 0
    · simp only [insPosItem, if_pos hsort, if_pos hfront]
      exact h.cons hcmp hkey (Int.le_of_lt hfront)
    · simp only [insPosItem, if_pos hsort, if_neg hfront, insertIdx_succ_cons]
      have hrest := (h.sublist (sublist_cons_self head rest)).insert hcmp hkey
      have hhead := h.keys head mem_cons_self
      have hbelow : ItemLe strCmp head newItem := hcmp.le_of_not_lt hkey hhead hfront
      exact h.cons_insert (sortedPos_le strCmp newItem.key rest) hbelow hrest

theorem addItem_sorted (pos : Int)
    (info : ListBoxItemInfo) (mem : LstMemory) : Sorted strCmp (addItem style strCmp s pos info mem).1.items := by
  unfold addItem
  cases halloc : s.lstAllocItem mem.node with
  | none => exact h
  | some alloc =>
    obtain ⟨plbi, s'⟩ := alloc
    obtain ⟨freeList, heap, rfl⟩ := lstAllocItem_eq halloc
    by_cases hcopied : mem.copied = true
    · simp only [if_pos hcopied]
      exact lstAddNewItem_sorted (s := { s with freeList, heap }) hcmp hsort h (newItem style plbi info) rfl pos
    · simp only [if_neg hcopied]
      obtain ⟨freeList', heap', heq⟩ := lstFreeItem_eq ({ s with freeList, heap } : ListBox) plbi
      rw [heq]
      exact h

theorem addString_sorted (pos : Int) (lParam : Option ListBoxItemInfo) (mem : LstMemory)
    : Sorted strCmp (addString style strCmp s pos lParam mem).1.items := by
  unfold addString
  cases lParam with
  | none => exact h
  | some info =>
    dsimp only
    split
    · exact h
    · exact addItem_sorted hcmp hsort h pos info mem

theorem multiAddItem_sorted (pos : Int) (infos : List (ListBoxItemInfo × LstMemory))
    : Sorted strCmp (multiAddItem style strCmp s pos infos).1.items := by
  induction infos generalizing s pos with
  | nil => exact h
  | cons first rest ih =>
    obtain ⟨info, mem⟩ := first
    have hadded := addItem_sorted hcmp hsort h (-1) info mem
    rw [multiAddItem]
    split
    · exact h
    dsimp only
    split
    · exact hadded
    · exact ih hadded _

end

theorem deleteString_sublist (s : ListBox) (delete : Int) : (s.deleteString delete).1.items.Sublist s.items := by
  unfold deleteString
  cases hremoved : s.lstRemoveItem delete with
  | none => exact Sublist.refl _
  | some result =>
    obtain ⟨removed, pos, s'⟩ := result
    have hitems : ∃ i, s' = { s with items := s.items.eraseIdx i } := by
      unfold lstRemoveItem at hremoved
      split at hremoved
      · cases hremoved
      · obtain ⟨_, _, heq⟩ := map_eq_some_iff.mp hremoved
        cases heq
        exact ⟨_, rfl⟩
    obtain ⟨i, rfl⟩ := hitems
    obtain ⟨freeList, heap, hfree⟩ := lstFreeItem_eq ({ s with items := s.items.eraseIdx i } : ListBox) removed.node
    simp only [hfree]
    obtain ⟨itemTop, itemHilighted, hview⟩ := removal_eq
      ({ s with items := s.items.eraseIdx i, freeList, heap, itemCount := s.itemCount - 1 } : ListBox) pos
    rw [hview]
    exact eraseIdx_sublist _ _

theorem onContent_sorted (hcmp : TotalPreorder strCmp) (hsort : style.sort = true) (h : Sorted strCmp s.items) (hadds : AddsOrDeletes message)
    : ∃ result, s.onContent style strCmp message = some result ∧ Sorted strCmp result.1.items := by
  cases message with
  | addString lParam mem => exact ⟨_, rfl, addString_sorted hcmp hsort h (-1) lParam mem⟩
  | insertString pos lParam mem => exact ⟨_, rfl, addString_sorted hcmp hsort h pos lParam mem⟩
  | deleteString delete => exact ⟨_, rfl, h.sublist (deleteString_sublist s delete)⟩
  | resetContent => exact ⟨_, rfl, h.sublist (nil_sublist _)⟩
  | setText | setItemData => exact hadds.elim
  | multiAddItem lParam =>
    cases lParam with
    | none => exact ⟨_, rfl, h⟩
    | some infos => exact ⟨_, rfl, multiAddItem_sorted hcmp hsort h (-1) infos⟩

end Sorting

section Runs

variable {style : LstStyle} {strCmp : StrCmp} {s : ListBox}

theorem ListInv.create (buffStart buffLen : Nat) (itemVisibles itemHeight : Int)
    : ListInv (create buffStart buffLen itemVisibles itemHeight) :=
  ⟨NodesInv.create buffStart buffLen itemVisibles itemHeight, rfl, fun plbi hplbi => by cases hplbi⟩

theorem ListInv.run (h : ListInv s) (messages : List LbContent) (hok : ContentRunOk style strCmp s messages)
    : ∃ s', s.contentRun style strCmp messages = some s' ∧ ListInv s' := by
  induction messages generalizing s with
  | nil => exact ⟨s, rfl, h⟩
  | cons message messages ih =>
    obtain ⟨hmessage, hrest⟩ := hok
    obtain ⟨result, heq, hinv, -⟩ := onContent_sound h hmessage
    obtain ⟨s', heq', hinv'⟩ := ih hinv (hrest result heq)
    refine ⟨s', ?_, hinv'⟩
    rw [contentRun, foldlM_cons, heq]
    exact heq'

theorem Sorted.run (hcmp : TotalPreorder strCmp) (hsort : style.sort = true) (h : Sorted strCmp s.items)
    (messages : List LbContent) (hadds : ∀ message ∈ messages, AddsOrDeletes message)
    : ∃ s', s.contentRun style strCmp messages = some s' ∧ Sorted strCmp s'.items := by
  induction messages generalizing s with
  | nil => exact ⟨s, rfl, h⟩
  | cons message messages ih =>
    obtain ⟨result, heq, hresult⟩ := onContent_sorted hcmp hsort h (hadds message mem_cons_self)
    obtain ⟨s', heq', hs'⟩ := ih hresult fun message' hmem => hadds message' (mem_cons_of_mem _ hmem)
    refine ⟨s', ?_, hs'⟩
    rw [contentRun, foldlM_cons, heq]
    exact heq'

/--
Messages that each find what they must leave every node in one place, and the next of them does to the list what it
returned.
-/
theorem listBox_content_run (buffStart buffLen : Nat) (itemVisibles itemHeight : Int) (messages : List LbContent)
    : (ContentRunOk style strCmp (ListBox.create buffStart buffLen itemVisibles itemHeight) messages →
        ∃ s, (ListBox.create buffStart buffLen itemVisibles itemHeight).contentRun style strCmp messages = some s
          ∧ s.itemCount = s.items.length
          ∧ (s.items.map (·.node) ++ s.freeList).Nodup
          ∧ (∀ plbi, plbi ∈ s.items.map (·.node) ∨ plbi ∈ s.freeList ↔ plbi ∈ s.buffer ∨ plbi ∈ s.heap)
          ∧ (∀ plbi ∈ s.freeList, plbi ∈ s.buffer)
          ∧ ∀ message, s.ContentOk style strCmp message →
            ∃ result, s.onContent style strCmp message = some result ∧ Sound s message result.1 result.2)
      ∧ (style.sort = true → TotalPreorder strCmp → (∀ message ∈ messages, AddsOrDeletes message) →
        ∃ s, (ListBox.create buffStart buffLen itemVisibles itemHeight).contentRun style strCmp messages = some s
          ∧ s.items.Pairwise (ItemLe strCmp)) := by
  refine ⟨fun hok => ?_, fun hsort hcmp hadds => ?_⟩
  · obtain ⟨s, heq, h⟩ := (ListInv.create buffStart buffLen itemVisibles itemHeight).run messages hok
    have hnodes : (s.items.map (·.node) ++ s.freeList).Perm (s.buffer ++ s.heap) := h.nodes.nodes
    refine ⟨s, heq, h.count, hnodes.nodup_iff.mpr h.nodes.nodup, fun plbi => ?_, h.nodes.free, fun message hmessage => ?_⟩
    · rw [← mem_append, ← mem_append]
      exact hnodes.mem_iff
    · obtain ⟨result, heq', -, hsound⟩ := onContent_sound h hmessage
      exact ⟨result, heq', hsound⟩
  · have hnil : Sorted strCmp (create buffStart buffLen itemVisibles itemHeight).items :=
      ⟨fun plbi hplbi => (not_mem_nil hplbi).elim, List.Pairwise.nil⟩
    obtain ⟨s, heq, h⟩ := hnil.run hcmp hsort messages hadds
    exact ⟨s, heq, h.pairwise⟩

theorem listBox_content_run_add :
    (∃ s, (ListBox.create 1000 16 2 12).contentRun ⟨false, false, false, false, false, false⟩ (fun _ _ _ => 0)
          [.addString (some ⟨[66], false, false, false, 0⟩) ⟨none, true⟩,
            .insertString 1 (some ⟨[65], false, false, false, 0⟩) ⟨none, true⟩] = some s
        ∧ s.itemCount = s.items.length
        ∧ (s.items.map (·.node) ++ s.freeList).Nodup
        ∧ (∀ plbi, plbi ∈ s.items.map (·.node) ∨ plbi ∈ s.freeList ↔ plbi ∈ s.buffer ∨ plbi ∈ s.heap)
        ∧ (∀ plbi ∈ s.freeList, plbi ∈ s.buffer)
        ∧ ∀ message, s.ContentOk ⟨false, false, false, false, false, false⟩ (fun _ _ _ => 0) message →
          ∃ result, s.onContent ⟨false, false, false, false, false, false⟩ (fun _ _ _ => 0) message = some result
            ∧ Sound s message result.1 result.2)
      ∧ ∃ s, (ListBox.create 1000 16 2 12).contentRun ⟨true, false, false, false, false, false⟩ (fun _ _ _ => 0)
          [.addString (some ⟨[66], false, false, false, 0⟩) ⟨none, true⟩,
            .insertString 1 (some ⟨[65], false, false, false, 0⟩) ⟨none, true⟩] = some s
        ∧ s.items.Pairwise (ItemLe fun _ _ _ => 0) := by
  refine ⟨(listBox_content_run 1000 16 2 12 _).1 ⟨?_, ?_⟩, (listBox_content_run 1000 16 2 12 _).2 rfl ?_ ?_⟩
  · intro hfree
    cases hfree
  · intro result hresult
    cases hresult
    refine ⟨⟨?_, fun _ _ _ _ => Or.inr (.inr ?_)⟩, fun _ _ => trivial⟩
    · intro hfree
      cases hfree
    · decide
  · exact ⟨fun _ _ => by decide, fun _ _ _ _ _ => by decide⟩
  · intro message hmessage
    rcases mem_cons.mp hmessage with rfl | hmem
    · trivial
    · rw [mem_singleton.mp hmem]
      trivial

theorem not_listBox_content_run :
    ∃ s, (ListBox.create 1000 16 2 12).contentRun ⟨false, false, true, false, false, false⟩ (fun _ _ _ => 0)
        [.addString (some ⟨[65], false, false, false, 0⟩) ⟨none, true⟩,
          .setItemData 0 (some ⟨[65, 66], false, false, false, 0⟩) false] = some s
      ∧ ∃ plbi, plbi ∈ s.items.map (·.node) ∧ plbi ∈ s.freeList := by
  refine ⟨_, rfl, 1000, ?_, ?_⟩
  · decide
  · decide

end Runs

end MiniGui.ListBox
