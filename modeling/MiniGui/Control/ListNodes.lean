import Mathlib.Data.List.InsertIdx
import Mathlib.Data.List.Nodup
import MiniGui.Control.ListBox

namespace MiniGui

open List

theorem perm_cons_eraseIdx {α : Type} {l : List α} {i : Nat} {a : α} (hget : l[i]? = some a)
    : (a :: l.eraseIdx i).Perm l := by
  induction l generalizing i with
  | nil => simp at hget
  | cons b l ih =>
    cases i with
    | zero =>
      cases hget
      exact List.Perm.refl _
    | succ i => exact (List.Perm.swap b a _).trans ((ih hget).cons b)

namespace ListBox

def Outside (s : ListBox) (plbi : Nat) : Prop :=
  plbi < s.buffStart ∨ plbi > s.buffEnd

structure NodesInv (held : List Nat) (s : ListBox) : Prop where
  nodes : (held ++ (s.items.map (·.node) ++ s.freeList)).Perm (s.buffer ++ s.heap)
  nodup : (s.buffer ++ s.heap).Nodup
  free : ∀ plbi ∈ s.freeList, plbi ∈ s.buffer
  outside : ∀ plbi ∈ s.heap, s.Outside plbi

def MemoryOk (s : ListBox) (mem : LstMemory) : Prop :=
  s.freeList = [] →
    ∀ plbi ∈ mem.node, plbi ∉ s.heap ∧ (plbi < s.buffStart ∨ s.buffEnd ≤ plbi) ∧ plbi ≠ s.buffEnd

section Buffer

variable {s : ListBox} {held : List Nat} {plbi : Nat}

theorem mem_buffer_bounds (hmem : plbi ∈ s.buffer) : s.buffStart ≤ plbi ∧ plbi < s.buffEnd := by
  obtain ⟨i, hi, rfl⟩ := List.mem_map.mp hmem
  have hlt := mem_range.mp hi
  have : (i + 1) * sizeofListBoxItem ≤ s.buffLen * sizeofListBoxItem := Nat.mul_le_mul_right _ hlt
  simp only [buffEnd, sizeofListBoxItem] at *
  omega

theorem not_outside_of_mem_buffer (hmem : plbi ∈ s.buffer) : ¬s.Outside plbi := by
  have := mem_buffer_bounds hmem
  unfold Outside
  omega

theorem buffer_nodup (s : ListBox) : s.buffer.Nodup := by
  refine Nodup.map ?_ nodup_range
  intro i j hij
  simp only [sizeofListBoxItem] at hij
  omega

end Buffer

namespace NodesInv

variable {s : ListBox} {held : List Nat} {plbi : Nat}

theorem alloc (h : NodesInv [] s) {mem : LstMemory} (hok : s.MemoryOk mem) {s' : ListBox}
    (halloc : s.lstAllocItem mem.node = some (plbi, s')) : NodesInv [plbi] s' := by
  unfold lstAllocItem at halloc
  split at halloc
  · rename_i rest hfree
    cases halloc
    have hnodes := h.nodes
    rw [hfree, nil_append] at hnodes
    have hperm : (plbi :: (s.items.map (·.node) ++ rest)).Perm (s.items.map (·.node) ++ plbi :: rest) :=
      perm_middle.symm
    refine ⟨hperm.trans hnodes, h.nodup, fun node hnode => h.free node ?_, h.outside⟩
    rw [hfree]
    exact mem_cons_of_mem _ hnode
  · rename_i hfree
    obtain ⟨node, hnode, heq⟩ := Option.map_eq_some_iff.mp halloc
    cases heq
    obtain ⟨hheap, houtside, hend⟩ := hok hfree plbi hnode
    have hout : s.Outside plbi := by
      unfold Outside
      omega
    have hbuffer : plbi ∉ s.buffer := fun hmem => not_outside_of_mem_buffer hmem hout
    refine ⟨(List.Perm.cons plbi h.nodes).trans perm_middle.symm, ?_, h.free, ?_⟩
    · refine nodup_middle.mpr (nodup_cons.mpr ⟨?_, h.nodup⟩)
      rw [mem_append]
      exact fun hmem => hmem.elim hbuffer hheap
    · intro node hnode
      rcases mem_cons.mp hnode with rfl | hmem
      · exact hout
      · exact h.outside node hmem

theorem release (h : NodesInv [plbi] s) : NodesInv [] (s.lstFreeItem plbi) := by
  have hmem : plbi ∈ s.buffer ++ s.heap := h.nodes.mem_iff.mp mem_cons_self
  unfold lstFreeItem
  by_cases hout : plbi < s.buffStart ∨ plbi > s.buffEnd
  · rw [if_pos hout]
    -- a node of the heap
    have hbuffer : plbi ∉ s.buffer := fun hin => not_outside_of_mem_buffer hin hout
    have hnodes := h.nodes.erase plbi
    rw [singleton_append, erase_cons_head, erase_append_right _ hbuffer] at hnodes
    refine ⟨hnodes, ?_, h.free, fun node hnode => h.outside node (mem_of_mem_erase hnode)⟩
    exact h.nodup.sublist ((Sublist.refl _).append erase_sublist)
  · rw [if_neg hout]
    have hbuffer : plbi ∈ s.buffer := by
      rcases mem_append.mp hmem with hin | hin
      · exact hin
      · exact absurd (h.outside plbi hin) hout
    refine ⟨perm_middle.trans h.nodes, h.nodup, ?_, h.outside⟩
    intro node hnode
    rcases mem_cons.mp hnode with rfl | hin
    · exact hbuffer
    · exact h.free node hin

theorem insert (h : NodesInv [plbi] s) {newItem : LstItem} (hnode : newItem.node = plbi) {i : Nat}
    (hi : i ≤ s.items.length) (itemCount : Int)
    : NodesInv [] { s with items := s.items.insertIdx i newItem, itemCount } := by
  refine ⟨?_, h.nodup, h.free, h.outside⟩
  have hperm := ((perm_insertIdx newItem s.items hi).map (·.node)).append_right s.freeList
  rw [map_cons, hnode] at hperm
  exact hperm.trans h.nodes

theorem remove (h : NodesInv [] s) {i : Nat} {removed : LstItem} (hget : s.items[i]? = some removed)
    : NodesInv [removed.node] { s with items := s.items.eraseIdx i } := by
  refine ⟨?_, h.nodup, h.free, h.outside⟩
  have hperm := ((perm_cons_eraseIdx hget).map (·.node)).append_right s.freeList
  exact hperm.trans h.nodes

theorem modify (h : NodesInv held s) {f : LstItem → LstItem} (hnode : ∀ plbi, (f plbi).node = plbi.node) (pos : Int)
    : NodesInv held (s.setItem pos f) := by
  have hmap : (s.items.modify pos.toNat f).map (·.node) = s.items.map (·.node) := by
    refine ext_getElem? fun i => ?_
    rw [getElem?_map, getElem?_map, getElem?_modify]
    cases s.items[i]? with
    | none => rfl
    | some plbi => by_cases hi : pos.toNat = i <;> simp [hi, hnode]
  refine ⟨?_, h.nodup, h.free, h.outside⟩
  rw [setItem, hmap]
  exact h.nodes

theorem mem_foldl_erase {items : List LstItem} {heap : List Nat} (hnodup : heap.Nodup) {plbi : Nat}
    (hmem : plbi ∈ items.foldl (fun heap item =>
      if item.node < s.buffStart ∨ item.node > s.buffEnd then heap.erase item.node else heap) heap)
    : plbi ∈ heap ∧ ∀ item ∈ items, s.Outside item.node → item.node ≠ plbi := by
  induction items generalizing heap with
  | nil => exact ⟨hmem, fun item hitem => by cases hitem⟩
  | cons item rest ih =>
    rw [foldl_cons] at hmem
    by_cases hout : item.node < s.buffStart ∨ item.node > s.buffEnd
    · rw [if_pos hout] at hmem
      obtain ⟨hin, hrest⟩ := ih (hnodup.erase _) hmem
      obtain ⟨hne, hin⟩ := (hnodup.mem_erase_iff).mp hin
      refine ⟨hin, fun other hother houtside => ?_⟩
      rcases mem_cons.mp hother with rfl | hother
      · exact fun heq => hne heq.symm
      · exact hrest other hother houtside
    · rw [if_neg hout] at hmem
      obtain ⟨hin, hrest⟩ := ih hnodup hmem
      refine ⟨hin, fun other hother houtside => ?_⟩
      rcases mem_cons.mp hother with rfl | hother
      · exact absurd houtside hout
      · exact hrest other hother houtside

theorem reset (h : NodesInv [] s) : NodesInv [] s.lstResetListBoxContent := by
  have hheap : s.lstResetListBoxContent.heap = [] := by
    refine eq_nil_iff_forall_not_mem.mpr fun plbi hmem => ?_
    obtain ⟨hin, hitems⟩ := mem_foldl_erase (s := s) h.nodup.of_append_right hmem
    have hout := h.outside plbi hin
    have hwhere : plbi ∈ s.items.map (·.node) ++ s.freeList :=
      h.nodes.mem_iff.mpr (mem_append_right _ hin)
    rcases mem_append.mp hwhere with hlist | hfree
    · obtain ⟨item, hitem, rfl⟩ := List.mem_map.mp hlist
      exact hitems item hitem hout rfl
    · exact not_outside_of_mem_buffer (h.free plbi hfree) hout
  refine ⟨?_, ?_, fun plbi hmem => hmem, ?_⟩
  · rw [hheap, append_nil]
    exact List.Perm.refl _
  · rw [hheap, append_nil]
    exact buffer_nodup s
  · intro plbi hmem
    rw [hheap] at hmem
    cases hmem

theorem create (buffStart buffLen : Nat) (itemVisibles itemHeight : Int)
    : NodesInv [] (create buffStart buffLen itemVisibles itemHeight) := by
  refine ⟨?_, ?_, fun plbi hmem => hmem, fun plbi hmem => by cases hmem⟩
  · change List.Perm _ (_ ++ [])
    rw [append_nil]
    exact List.Perm.refl _
  · change (_ ++ []).Nodup
    rw [append_nil]
    exact buffer_nodup (ListBox.create buffStart buffLen itemVisibles itemHeight)

end NodesInv

end ListBox

end MiniGui
