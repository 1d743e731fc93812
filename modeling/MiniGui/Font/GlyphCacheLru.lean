import MiniGui.Font.GlyphCache

namespace MiniGui

open Function List

open LinkRing

open GlyphCache (create createCacheLruQueue initHashDir linkBlks ttcSearch ttcWrite)

open LruPtr (blk)

section Create

theorem linkBlks_blk (n : Nat) (links : (LruPtr → LruPtr) × (LruPtr → LruPtr)) (i : Int)
    : (linkBlks n links).1 (.blk i) = (if 1 ≤ i ∧ i ≤ n then .blk (i + 1) else links.1 (.blk i))
      ∧ (linkBlks n links).2 (.blk i) = if 1 ≤ i ∧ i ≤ n then .blk (i - 1) else links.2 (.blk i) := by
  induction n with
  | zero =>
    rw [if_neg (by omega), if_neg (by omega)]
    exact ⟨rfl, rfl⟩
  | succ n ih =>
    unfold linkBlks
    dsimp only
    by_cases hi : i = n + 1
    . subst hi
      have hnext : (n : Int) + 2 = n + 1 + 1 := by omega
      have hprev : (n : Int) = n + 1 - 1 := by omega
      rw [update_self, update_self, if_pos (by omega), if_pos (by omega), hnext, ← hprev]
      exact ⟨rfl, rfl⟩
    have hne : blk i ≠ .blk (n + 1) := fun h => hi (blk.inj h)
    rw [update_of_ne hne, update_of_ne hne, ih.1, ih.2]
    by_cases hin : 1 ≤ i ∧ i ≤ n
    . rw [if_pos hin, if_pos (by omega), if_pos hin, if_pos (by omega)]
      exact ⟨rfl, rfl⟩
    . rw [if_neg hin, if_neg (by omega), if_neg hin, if_neg (by omega)]
      exact ⟨rfl, rfl⟩

variable (nblk : Nat) (links : (LruPtr → LruPtr) × (LruPtr → LruPtr))

theorem createCacheLruQueue_head : (createCacheLruQueue nblk links).1 .head = .blk 0
    ∧ (createCacheLruQueue nblk links).2 .head = .blk (nblk - 1) := by
  unfold createCacheLruQueue
  dsimp only
  rw [update_self, update_self]
  exact ⟨rfl, rfl⟩

theorem createCacheLruQueue_blk (i : Nat) (hi : i < nblk)
    : (createCacheLruQueue nblk links).1 (.blk i) = (if i = nblk - 1 then .head else .blk (i + 1))
      ∧ (createCacheLruQueue nblk links).2 (.blk i)
        = if i = nblk - 1 then .blk (nblk - 2) else if i = 0 then .head else .blk (i - 1) := by
  unfold createCacheLruQueue
  dsimp only
  have hhead : blk i ≠ .head := LruPtr.noConfusion
  rw [update_of_ne hhead, update_of_ne hhead]
  by_cases hlast : i = nblk - 1
  . have heq : blk i = .blk (nblk - 1) := by
      congr 1
      omega
    rw [heq, update_self, update_self, if_pos hlast, if_pos hlast]
    exact ⟨rfl, rfl⟩
  have hne : blk i ≠ .blk (nblk - 1) := by
    intro h
    have heq := blk.inj h
    omega
  rw [update_of_ne hne, update_of_ne hne, (linkBlks_blk _ _ _).1, (linkBlks_blk _ _ _).2,
    if_neg hlast, if_neg hlast]
  by_cases hzero : i = 0
  . subst hzero
    rw [if_neg (by omega), if_neg (by omega), if_pos rfl]
    change update links.1 (blk 0) (.blk 1) (blk 0) = _
      ∧ update links.2 (blk 0) .head (blk 0) = _
    rw [update_self, update_self]
    exact ⟨rfl, rfl⟩
  . rw [if_pos (by omega), if_pos (by omega), if_neg hzero]
    exact ⟨rfl, rfl⟩

def lruNode (nblk i : Nat) : LruPtr :=
  if i = 0 ∨ i = nblk + 1 then .head else .blk (i - 1)

theorem lruNodes_eq (conf : GlyphConf)
    : LruPtr.head :: conf.blks.map .blk ++ [.head] = (List.range (conf.nBlk + 1).succ).map (lruNode conf.nBlk) := by
  rw [range_succ, map_append, range_succ_eq_map]
  unfold GlyphConf.blks
  rw [map_cons, List.map_map, List.map_map]
  congr 1
  . congr 1
    refine map_congr_left fun i hi => ?_
    have hlt := mem_range.mp hi
    unfold lruNode
    rw [comp_apply, comp_apply, if_neg (by omega)]
    congr 1
    change (i : Int) = ((i + 1 : Nat) : Int) - 1
    omega
  . unfold lruNode
    rw [map_singleton, if_pos (.inr rfl)]

theorem nodup_blks (conf : GlyphConf) : conf.blks.Nodup :=
  nodup_range.map fun _ _ h => Int.ofNat.inj h

theorem nodup_nodes {blks : List Int} (h : blks.Nodup) : (LruPtr.head :: blks.map .blk).Nodup := by
  refine nodup_cons.mpr ⟨?_, h.map fun _ _ h => blk.inj h⟩
  intro hmem
  obtain ⟨i, -, heq⟩ := List.mem_map.mp hmem
  exact LruPtr.noConfusion heq

theorem create_next (conf : GlyphConf)
    : Round (create conf).lruNext .head (conf.blks.map .blk) := by
  have hpos := conf.nBlk_pos
  refine ⟨?_, nodup_nodes (nodup_blks conf)⟩
  rw [lruNodes_eq, isChain_map, isChain_range]
  intro i hi
  change (createCacheLruQueue conf.nBlk _).1 _ = _
  unfold lruNode
  by_cases hzero : i = 0
  . rw [if_pos (.inl hzero), if_neg (by omega), (createCacheLruQueue_head _ _).1]
    congr 1
    omega
  have hblk : (i : Int) - 1 = ((i - 1 : Nat) : Int) := by omega
  rw [if_neg (by omega), hblk, (createCacheLruQueue_blk _ _ _ (by omega)).1]
  by_cases hlast : i - 1 = conf.nBlk - 1
  . rw [if_pos hlast, if_pos (by omega)]
  . rw [if_neg hlast, if_neg (by omega)]
    congr 1
    omega

theorem create_prev (conf : GlyphConf) (hne : conf.nBlk ≠ 1)
    : Round (create conf).lruPrev .head (conf.blks.map .blk).reverse := by
  have hpos := conf.nBlk_pos
  have hreverse : LruPtr.head :: (conf.blks.map blk).reverse ++ [LruPtr.head]
      = (LruPtr.head :: conf.blks.map blk ++ [LruPtr.head]).reverse := by simp
  refine ⟨?_, ?_⟩
  . rw [hreverse, isChain_reverse, lruNodes_eq, isChain_map, isChain_range]
    intro i hi
    change (createCacheLruQueue conf.nBlk _).2 _ = _
    unfold lruNode
    by_cases hlast : i = conf.nBlk
    . rw [if_pos (.inr (by omega)), if_neg (by omega), (createCacheLruQueue_head _ _).2, hlast]
    have hblk : ((i.succ : Nat) : Int) - 1 = (i : Int) := by omega
    rw [if_neg (by omega), hblk, (createCacheLruQueue_blk _ _ _ (by omega)).2]
    by_cases hend : i = conf.nBlk - 1
    . rw [if_pos hend, if_neg (by omega)]
      congr 1
      omega
    rw [if_neg hend]
    by_cases hzero : i = 0
    . rw [if_pos hzero, if_pos (.inl hzero)]
    . rw [if_neg hzero, if_neg (by omega)]
  . have hnodup := nodup_cons.mp (nodup_nodes (nodup_blks conf))
    refine nodup_cons.mpr ⟨fun hmem => hnodup.1 (mem_reverse.mp hmem), nodup_reverse.mpr hnodup.2⟩

theorem initHashDir_ring (key : Nat) : LinkRing.Ring initHashDir initHashDir (.head key) [] := by
  have hround : Round initHashDir (.head key) [] := by
    refine ⟨?_, nodup_singleton _⟩
    exact isChain_cons_cons.mpr ⟨rfl, isChain_singleton _⟩
  exact ⟨hround, hround⟩

end Create

namespace CacheRun

variable {conf : GlyphConf} {run : CacheRun} {blks : List Int} {chain : Nat → List Int}

structure Fresh (conf : GlyphConf) (run : CacheRun) : Prop where
  single : conf.nBlk = 1
  next_head : run.cache.lruNext .head = .blk 0
  next_blk : run.cache.lruNext (.blk 0) = .head
  prev_head : run.cache.lruPrev .head = .blk 0
  prev_blk : run.cache.lruPrev (.blk 0) = .blk (-1)
  unwritten : ∀ blk, run.lastWrite blk = none

structure Inv (conf : GlyphConf) (run : CacheRun) (blks : List Int) (chain : Nat → List Int) : Prop where
  perm : blks.Perm conf.blks
  queue : LinkRing.Ring run.cache.lruNext run.cache.lruPrev .head (blks.map .blk) ∨ Fresh conf run
  oldest : blks.Pairwise fun a b => run.useAge b ≤ run.useAge a
  chains : ∀ key, LinkRing.Ring run.cache.hashNext run.cache.hashPrev (.head key) ((chain key).map .blk)
  mem : ∀ key blk, blk ∈ chain key ↔ blk ∈ conf.blks
    ∧ ∃ data size, run.lastWrite blk = some (data, size) ∧ conf.makeHashKeyFunc data.unicode = key
  newest : ∀ key, (chain key).Pairwise fun a b => run.writeAge a ≤ run.writeAge b
  data : ∀ blk data size, run.lastWrite blk = some (data, size) → run.cache.data blk = data ∧ run.cache.len blk = size
  unlinked : ∀ blk, run.lastWrite blk = none → run.cache.hashNext (.blk blk) = .null

theorem inv_create (conf : GlyphConf) : Inv conf ⟨.create conf, []⟩ conf.blks fun _ => [] where
  perm := List.Perm.refl _
  queue := by
    by_cases hone : conf.nBlk = 1
    . have hblk := createCacheLruQueue_blk conf.nBlk (fun _ => .head, fun _ => .head) 0 conf.nBlk_pos
      have hhead := createCacheLruQueue_head conf.nBlk (fun _ => .head, fun _ => .head)
      have hlast : LruPtr.blk (conf.nBlk - 1) = .blk 0 := by
        congr 1
        omega
      have hbefore : LruPtr.blk (conf.nBlk - 2) = .blk (-1) := by
        congr 1
        omega
      have hzero : 0 = conf.nBlk - 1 := by omega
      rw [hlast] at hhead
      rw [if_pos hzero, if_pos hzero, hbefore] at hblk
      exact .inr ⟨hone, hhead.1, hblk.1, hhead.2, hblk.2, fun _ => rfl⟩
    . exact .inl ⟨create_next conf, create_prev conf hone⟩
  oldest := pairwise_of_forall fun _ _ => Nat.le_refl _
  chains key := initHashDir_ring key
  mem key blk := by
    constructor
    . intro h
      exact nomatch h
    . rintro ⟨-, data, size, h, -⟩
      exact nomatch h
  newest _ := List.Pairwise.nil
  data _ _ _ h := nomatch h
  unlinked _ _ := rfl

theorem Inv.nodup (h : Inv conf run blks chain) : blks.Nodup :=
  h.perm.nodup_iff.mpr (nodup_blks conf)

theorem Inv.nodup_chain (h : Inv conf run blks chain) (key : Nat) : (chain key).Nodup :=
  (nodup_cons.mp (h.chains key).next.nodup).2.of_map _

theorem Inv.round (h : Inv conf run blks chain) : Round run.cache.lruNext .head (blks.map .blk) := by
  rcases h.queue with hring | hfresh
  . exact hring.next
  have hblks : blks = [0] := by
    have hperm := h.perm
    have hconf : conf.blks = [0] := by
      unfold GlyphConf.blks
      rw [hfresh.single]
      rfl
    rw [hconf] at hperm
    exact perm_singleton.mp hperm
  rw [hblks]
  refine ⟨?_, nodup_nodes (nodup_singleton 0)⟩
  exact isChain_cons_cons.mpr ⟨hfresh.next_head,
    isChain_cons_cons.mpr ⟨hfresh.next_blk, isChain_singleton _⟩⟩

theorem useAge_cons (run : CacheRun) (event : CacheEvent) (blk : Int)
    : useAge ⟨run.cache, event :: run.history⟩ blk = if event.uses blk then 0 else run.useAge blk + 1 := by
  unfold useAge
  rw [findIdx_cons]
  cases event.uses blk with
  | true => rfl
  | false => rfl

theorem writeAge_cons (run : CacheRun) (event : CacheEvent) (blk : Int)
    : writeAge ⟨run.cache, event :: run.history⟩ blk = if event.writes blk then 0 else run.writeAge blk + 1 := by
  unfold writeAge
  rw [findIdx_cons]
  cases event.writes blk with
  | true => rfl
  | false => rfl

theorem lastWrite_cons (run : CacheRun) (event : CacheEvent) (blk : Int) (h : event.writes blk = false)
    : lastWrite ⟨run.cache, event :: run.history⟩ blk = run.lastWrite blk := by
  unfold lastWrite
  rw [findSome?_cons]
  cases event with
  | wrote blk' data size =>
    have hne : blk' ≠ blk := of_decide_eq_false h
    dsimp only
    rw [if_neg hne]
  | missed => rfl
  | found => rfl
  | failed => rfl
  | stuck => rfl

theorem lastWrite_wrote (run : CacheRun) (blk : Int) (data : TtfCacheInfo) (size : Int)
    : lastWrite ⟨run.cache, .wrote blk data size :: run.history⟩ blk = some (data, size) := by
  unfold lastWrite
  rw [findSome?_cons]
  dsimp only
  rw [if_pos rfl]

variable {α : Type} {key : Nat} {l m : List Int} {u : HashPtr} {b size : Int} {cache : GlyphCache}
  {event : CacheEvent}

theorem ring_nil {next prev : α → α} {head : α} (hnext : next head = head) (hprev : prev head = head)
    : LinkRing.Ring next prev head [] := by
  have hround {f : α → α} (h : f head = head) : Round f head [] :=
    ⟨isChain_cons_cons.mpr ⟨h, isChain_singleton _⟩, nodup_singleton _⟩
  exact ⟨hround hnext, hround hprev⟩

theorem first_mem (head : α) (l : List α) : l.head?.getD head ∈ head :: l := by
  cases l with
  | nil => exact mem_cons_self
  | cons x l => exact mem_cons_of_mem _ mem_cons_self

theorem node_ne_null (hu : u ∈ HashPtr.head key :: l.map .blk) : u ≠ .null := by
  rcases mem_cons.mp hu with rfl | hmem
  . exact HashPtr.noConfusion
  . obtain ⟨i, -, rfl⟩ := List.mem_map.mp hmem
    exact HashPtr.noConfusion

theorem node_disjoint {key' : Nat} {l' : List Int} (hkey : key ≠ key') (hdisjoint : ∀ i ∈ l, i ∉ l')
    (hu : u ∈ HashPtr.head key :: l.map .blk) : u ∉ HashPtr.head key' :: l'.map .blk := by
  intro hu'
  rcases mem_cons.mp hu with rfl | hmem
  . rcases mem_cons.mp hu' with heq | hmem'
    . exact hkey (HashPtr.head.inj heq)
    . obtain ⟨i, -, heq⟩ := List.mem_map.mp hmem'
      exact HashPtr.noConfusion heq
  obtain ⟨i, hi, rfl⟩ := List.mem_map.mp hmem
  rcases mem_cons.mp hu' with heq | hmem'
  . exact HashPtr.noConfusion heq
  . obtain ⟨i', hi', heq⟩ := List.mem_map.mp hmem'
    obtain rfl := HashPtr.blk.inj heq
    exact hdisjoint _ hi hi'

theorem Inv.disjoint (h : Inv conf run blks chain) {key' : Nat} (hkey : key ≠ key')
    : ∀ i ∈ chain key, i ∉ chain key' := by
  intro i hi hi'
  obtain ⟨-, data, size, hwrite, heq⟩ := (h.mem key i).mp hi
  obtain ⟨-, data', size', hwrite', heq'⟩ := (h.mem key' i).mp hi'
  rw [hwrite] at hwrite'
  cases hwrite'
  exact hkey (heq.symm.trans heq')

theorem erase_split (h : (l ++ b :: m).Nodup) : (l ++ b :: m).erase b = l ++ m := by
  have hb : b ∉ l := fun hmem => (nodup_append.mp h).2.2 b hmem b mem_cons_self rfl
  rw [erase_append_right _ hb, erase_cons_head]

structure PickedOff (run : CacheRun) (chain : Nat → List Int) (b : Int) (m : List Int) (picked : GlyphCache) : Prop where
  queue : LinkRing.Ring picked.lruNext picked.lruPrev .head (m.map .blk)
  chains : ∀ key, LinkRing.Ring picked.hashNext picked.hashPrev (.head key) (((chain key).erase b).map .blk)
  unlinked : ∀ blk, blk ≠ b → run.lastWrite blk = none → picked.hashNext (.blk blk) = .null
  data : picked.data = run.cache.data
  len : picked.len = run.cache.len

theorem Inv.pickOff_queue (h : Inv conf run (b :: m) chain)
    : LinkRing.Ring (update run.cache.lruNext .head (run.cache.lruNext (.blk b)))
      (update run.cache.lruPrev (run.cache.lruNext (.blk b)) .head) .head (m.map .blk) := by
  rcases h.queue with hring | hfresh
  . rw [map_cons, ← nil_append (blk b :: m.map .blk)] at hring
    have hprev : run.cache.lruPrev (.blk b) = .head := hring.prev_eq
    have hremove := hring.remove
    rw [hprev] at hremove
    exact hremove
  have hlength := h.perm.length_eq
  unfold GlyphConf.blks at hlength
  rw [length_cons, length_map, length_range, hfresh.single] at hlength
  obtain rfl := length_eq_zero_iff.mp (Nat.succ.inj hlength)
  have hfirst := h.round.apply_pred (l := []) (m := [])
  have hb : blk b = .blk 0 := hfirst.symm.trans hfresh.next_head
  rw [hb, hfresh.next_blk]
  exact ring_nil (update_self _ _ _) (update_self _ _ _)

theorem Inv.pickOff_chains (h : Inv conf run blks chain) {data : TtfCacheInfo}
    (hb : b ∈ conf.blks) (hwrite : run.lastWrite b = some (data, size))
    : run.cache.hashNext (.blk b) ≠ .null ∧ run.cache.hashPrev (.blk b) ≠ .null
      ∧ (∀ blk, run.lastWrite blk = none → HashPtr.blk blk ≠ run.cache.hashPrev (.blk b))
      ∧ ∀ key, LinkRing.Ring
        (update run.cache.hashNext (run.cache.hashPrev (.blk b)) (run.cache.hashNext (.blk b)))
        (update run.cache.hashPrev (run.cache.hashNext (.blk b)) (run.cache.hashPrev (.blk b)))
        (.head key) (((chain key).erase b).map .blk) := by
  let home := conf.makeHashKeyFunc data.unicode
  have hmem := (h.mem home b).mpr ⟨hb, data, size, hwrite, rfl⟩
  obtain ⟨l, m, hsplit⟩ := append_of_mem hmem
  have hring := h.chains home
  have hnodup := h.nodup_chain home
  rw [hsplit] at hnodup
  rw [hsplit, map_append, map_cons] at hring
  have hnext : run.cache.hashNext (.blk b)
      ∈ HashPtr.head home :: (chain home).map .blk := by
    rw [hring.next_eq, hsplit, map_append]
    rcases mem_cons.mp (first_mem (HashPtr.head home) (m.map .blk)) with heq | hin
    . rw [heq]
      exact mem_cons_self
    . exact mem_cons_of_mem _ (mem_append_right _ (mem_cons_of_mem _ hin))
  have hprev : run.cache.hashPrev (.blk b)
      ∈ HashPtr.head home :: (chain home).map .blk := by
    rw [hring.prev_eq, hsplit, map_append]
    rcases mem_cons.mp (last_mem (HashPtr.head home) (l.map .blk)) with heq | hin
    . rw [heq]
      exact mem_cons_self
    . exact mem_cons_of_mem _ (mem_append_left _ hin)
  refine ⟨node_ne_null hnext, node_ne_null hprev, ?_, ?_⟩
  . intro blk hnone heq
    rw [← heq] at hprev
    rcases mem_cons.mp hprev with heq | hin
    . exact HashPtr.noConfusion heq
    obtain ⟨i, hi, heq⟩ := List.mem_map.mp hin
    obtain rfl := HashPtr.blk.inj heq
    obtain ⟨-, data', size', hsome, -⟩ := (h.mem _ _).mp hi
    rw [hnone] at hsome
    exact nomatch hsome
  intro key
  by_cases hkey : key = home
  . rw [hkey, hsplit, erase_split hnodup, map_append]
    exact hring.remove
  have hdisjoint := h.disjoint hkey
  have hout : b ∉ chain key := fun hin => hdisjoint b hin hmem
  rw [erase_of_not_mem hout]
  refine (h.chains key).congr ?_ ?_
  . intro u hu
    refine update_of_ne ?_ _ _
    rintro rfl
    exact node_disjoint hkey hdisjoint hu hprev
  intro u hu
  refine update_of_ne ?_ _ _
  rintro rfl
  exact node_disjoint hkey hdisjoint hu hnext

theorem Inv.pickOff (h : Inv conf run (b :: m) chain)
    : ∃ picked, run.cache.pickOffBlk = some (b, picked) ∧ PickedOff run chain b m picked := by
  have hfirst : run.cache.lruNext .head = .blk b := h.round.apply_pred (l := [])
  have hqueue := h.pickOff_queue
  have hb : b ∈ conf.blks := h.perm.mem_iff.mp mem_cons_self
  unfold GlyphCache.pickOffBlk
  rw [hfirst]
  dsimp only
  rw [update_self]
  cases hwrite : run.lastWrite b with
  | none =>
    rw [if_neg (fun hand => hand.1 (h.unlinked b hwrite))]
    refine ⟨_, rfl, hqueue, fun key => ?_, fun blk _ hnone => h.unlinked blk hnone, rfl, rfl⟩
    have hout : b ∉ chain key := by
      intro hin
      obtain ⟨-, data, size, hsome, -⟩ := (h.mem key b).mp hin
      rw [hwrite] at hsome
      exact nomatch hsome
    rw [erase_of_not_mem hout]
    exact h.chains key
  | some write =>
    obtain ⟨data, size⟩ := write
    obtain ⟨hnext, hprev, hother, hchains⟩ := h.pickOff_chains hb hwrite
    rw [if_pos ⟨hnext, hprev⟩]
    refine ⟨_, rfl, hqueue, hchains, fun blk _ hnone => ?_, rfl, rfl⟩
    exact (update_of_ne (hother blk hnone) _ _).trans (h.unlinked blk hnone)

theorem appendBlk_rings (key : Nat)
    (hqueue : LinkRing.Ring cache.lruNext cache.lruPrev .head (m.map .blk)) (hb : b ∉ m)
    (hchains : ∀ key, LinkRing.Ring cache.hashNext cache.hashPrev (.head key) ((chain key).map .blk))
    (hout : ∀ key, b ∉ chain key) (hdisjoint : ∀ key key', key ≠ key' → ∀ i ∈ chain key, i ∉ chain key')
    : LinkRing.Ring (cache.appendBlk b key).lruNext (cache.appendBlk b key).lruPrev .head ((m ++ [b]).map .blk)
      ∧ ∀ key', LinkRing.Ring (cache.appendBlk b key).hashNext (cache.appendBlk b key).hashPrev (.head key')
        ((if key' = key then b :: chain key' else chain key').map .blk) := by
  have hnode : blk b ∉ LruPtr.head :: m.map .blk := by
    intro hin
    rcases mem_cons.mp hin with heq | hin
    . exact LruPtr.noConfusion heq
    . obtain ⟨i, hi, heq⟩ := List.mem_map.mp hin
      obtain rfl := blk.inj heq
      exact hb hi
  have hblk (key : Nat) : HashPtr.blk b ∉ HashPtr.head key :: (chain key).map .blk := by
    intro hin
    rcases mem_cons.mp hin with heq | hin
    . exact HashPtr.noConfusion heq
    . obtain ⟨i, hi, heq⟩ := List.mem_map.mp hin
      obtain rfl := HashPtr.blk.inj heq
      exact hout key hi
  refine ⟨?_, fun key' => ?_⟩
  . rw [map_append]
    exact hqueue.concat hnode
  by_cases hkey : key' = key
  . rw [if_pos hkey, hkey]
    exact (hchains key).cons (hblk key)
  have hfirst : cache.hashNext (.head key) ∈ HashPtr.head key :: (chain key).map .blk := by
    rw [(hchains key).next_head]
    exact first_mem _ _
  have hapart {u : HashPtr} (hu : u ∈ HashPtr.head key' :: (chain key').map .blk)
      : u ∉ HashPtr.head key :: (chain key).map .blk := node_disjoint hkey (hdisjoint key' key hkey) hu
  rw [if_neg hkey]
  refine (hchains key').congr ?_ ?_
  . intro u hu
    have hne : u ≠ .head key := by
      rintro rfl
      exact hapart hu mem_cons_self
    have hne' : u ≠ .blk b := by
      rintro rfl
      exact hblk key' hu
    exact (update_of_ne hne _ _).trans (update_of_ne hne' _ _)
  intro u hu
  have hne : u ≠ cache.hashNext (.head key) := by
    rintro rfl
    exact hapart hu hfirst
  have hne' : u ≠ .blk b := by
    rintro rfl
    exact hblk key' hu
  exact (update_of_ne hne' _ _).trans (update_of_ne hne _ _)

theorem oldest_used (cache : GlyphCache)
    (hold : l.Pairwise fun x y => run.useAge y ≤ run.useAge x) (hb : b ∉ l)
    (huses : ∀ blk, event.uses blk = decide (b = blk)) : (l ++ [b]).Pairwise fun x y =>
        useAge ⟨cache, event :: run.history⟩ y ≤ useAge ⟨cache, event :: run.history⟩ x := by
  have hage (blk : Int) (hne : blk ≠ b) : useAge ⟨cache, event :: run.history⟩ blk = run.useAge blk + 1 := by
    refine (useAge_cons run event blk).trans (if_neg ?_)
    rw [huses]
    exact fun heq => hne (of_decide_eq_true heq).symm
  have hself : useAge ⟨cache, event :: run.history⟩ b = 0 :=
    (useAge_cons run event b).trans (if_pos ((huses b).trans (decide_eq_true rfl)))
  refine pairwise_append.mpr ⟨?_, pairwise_singleton _ _, ?_⟩
  . refine hold.imp_of_mem fun {x y} hx hy hle => ?_
    rw [hage x (fun heq => hb (heq ▸ hx)), hage y (fun heq => hb (heq ▸ hy))]
    exact Nat.succ_le_succ hle
  intro x _ y hy
  obtain rfl := mem_singleton.mp hy
  rw [hself]
  exact Nat.zero_le _

theorem Inv.write_eq (h : Inv conf run blks chain) (data : TtfCacheInfo) (hsize : size ≤ conf.blkSize)
    : ∃ b m picked, blks = b :: m ∧ PickedOff run chain b m picked
      ∧ run.cache.ttcWrite conf data size
        = (some b, { picked with
            data := update picked.data b data
            len := update picked.len b size }.appendBlk b (conf.makeHashKeyFunc data.unicode)) := by
  cases blks with
  | nil =>
    have hlength := h.perm.length_eq
    unfold GlyphConf.blks at hlength
    rw [List.length_nil, length_map, length_range] at hlength
    exact absurd hlength (Nat.ne_of_lt conf.nBlk_pos)
  | cons b m =>
    obtain ⟨picked, hpick, hoff⟩ := h.pickOff
    refine ⟨b, m, picked, rfl, hoff, ?_⟩
    unfold ttcWrite
    rw [if_neg (by omega), hpick]

theorem Inv.write (h : Inv conf run blks chain) (data : TtfCacheInfo) (hsize : size ≤ conf.blkSize)
    : ∃ blks' chain', Inv conf (run.step conf (.write data size)) blks' chain'
      ∧ LinkRing.Ring (run.step conf (.write data size)).cache.lruNext (run.step conf (.write data size)).cache.lruPrev
        .head (blks'.map .blk) := by
  obtain ⟨b, m, picked, rfl, hoff, hwrite⟩ := h.write_eq data hsize
  have hnodup := nodup_cons.mp h.nodup
  have hb : b ∈ conf.blks := h.perm.mem_iff.mp mem_cons_self
  have hrings := appendBlk_rings (conf.makeHashKeyFunc data.unicode) hoff.queue hnodup.1 hoff.chains
    (fun key hin => (h.nodup_chain key).not_mem_erase hin)
    (fun key key' hkey i hi hi' => h.disjoint hkey i (mem_of_mem_erase hi) (mem_of_mem_erase hi'))
  unfold step
  dsimp only
  rw [hwrite]
  dsimp only
  refine ⟨m ++ [b], fun key => if key = conf.makeHashKeyFunc data.unicode then b :: (chain key).erase b
    else (chain key).erase b, ?_, hrings.1⟩
  have hwage (blk : Int) (hne : blk ≠ b) (cache : GlyphCache)
      : writeAge ⟨cache, .wrote b data size :: run.history⟩ blk = run.writeAge blk + 1 := by
    refine (writeAge_cons run _ blk).trans (if_neg ?_)
    exact fun heq => hne (of_decide_eq_true heq).symm
  have hwself (cache : GlyphCache) : writeAge ⟨cache, .wrote b data size :: run.history⟩ b = 0 :=
    (writeAge_cons run _ b).trans (if_pos (decide_eq_true rfl))
  have hlast (blk : Int) (hne : blk ≠ b) (cache : GlyphCache)
      : lastWrite ⟨cache, .wrote b data size :: run.history⟩ blk = run.lastWrite blk :=
    lastWrite_cons run _ blk (decide_eq_false hne.symm)
  have hlself (cache : GlyphCache) : lastWrite ⟨cache, .wrote b data size :: run.history⟩ b = some (data, size) :=
    lastWrite_wrote run b data size
  constructor
  case perm => exact (perm_append_singleton b m).trans h.perm
  case queue => exact .inl hrings.1
  case oldest => exact oldest_used _ (pairwise_cons.mp h.oldest).2 hnodup.1 fun _ => rfl
  case chains => exact hrings.2
  case mem =>
    intro key blk
    by_cases hblk : blk = b
    . subst hblk
      rw [hlself]
      constructor
      . intro hin
        by_cases hkey : key = conf.makeHashKeyFunc data.unicode
        . exact ⟨hb, data, size, rfl, hkey.symm⟩
        . rw [if_neg hkey] at hin
          exact absurd hin (h.nodup_chain key).not_mem_erase
      rintro ⟨-, data', size', heq, hkey⟩
      cases heq
      rw [if_pos hkey.symm]
      exact mem_cons_self
    rw [hlast blk hblk, ← h.mem key blk]
    split
    . rw [mem_cons, mem_erase_of_ne hblk]
      exact ⟨fun hor => hor.resolve_left hblk, .inr⟩
    . rw [mem_erase_of_ne hblk]
  case newest =>
    intro key
    have herase : ((chain key).erase b).Pairwise fun x y =>
        writeAge ⟨run.cache, .wrote b data size :: run.history⟩ x
          ≤ writeAge ⟨run.cache, .wrote b data size :: run.history⟩ y := by
      refine ((h.newest key).sublist erase_sublist).imp_of_mem fun {x y} hx hy hle => ?_
      rw [hwage x (fun heq => (h.nodup_chain key).not_mem_erase (heq ▸ hx)),
        hwage y (fun heq => (h.nodup_chain key).not_mem_erase (heq ▸ hy))]
      exact Nat.succ_le_succ hle
    split
    . refine pairwise_cons.mpr ⟨fun y _ => ?_, herase⟩
      rw [hwself]
      exact Nat.zero_le _
    . exact herase
  case data =>
    intro blk data' size' hwritten
    by_cases hblk : blk = b
    . subst hblk
      rw [hlself] at hwritten
      cases hwritten
      exact ⟨update_self _ _ _, update_self _ _ _⟩
    rw [hlast blk hblk] at hwritten
    have hold := h.data blk data' size' hwritten
    rw [← hoff.data, ← hoff.len] at hold
    exact ⟨(update_of_ne hblk _ _).trans hold.1, (update_of_ne hblk _ _).trans hold.2⟩
  case unlinked =>
    intro blk hnone
    by_cases hblk : blk = b
    . subst hblk
      rw [hlself] at hnone
      exact nomatch hnone
    rw [hlast blk hblk] at hnone
    have hne : HashPtr.blk blk ≠ .head (conf.makeHashKeyFunc data.unicode) := HashPtr.noConfusion
    have hne' : HashPtr.blk blk ≠ .blk b := fun heq => hblk (HashPtr.blk.inj heq)
    exact ((update_of_ne hne (HashPtr.blk b) _).trans (update_of_ne hne' _ _)).trans
      (hoff.unlinked blk hblk hnone)

theorem Inv.quiet (h : Inv conf run blks chain) (huses : ∀ blk, event.uses blk = false)
    (hwrites : ∀ blk, event.writes blk = false) : Inv conf ⟨run.cache, event :: run.history⟩ blks chain := by
  have hage (blk : Int) : useAge ⟨run.cache, event :: run.history⟩ blk = run.useAge blk + 1 := by
    rw [useAge_cons, huses, if_neg Bool.false_ne_true]
  have hwage (blk : Int) : writeAge ⟨run.cache, event :: run.history⟩ blk = run.writeAge blk + 1 := by
    rw [writeAge_cons, hwrites, if_neg Bool.false_ne_true]
  have hlast (blk : Int) : lastWrite ⟨run.cache, event :: run.history⟩ blk = run.lastWrite blk :=
    lastWrite_cons run event blk (hwrites blk)
  constructor
  case perm => exact h.perm
  case queue =>
    rcases h.queue with hring | hfresh
    . exact .inl hring
    . exact .inr ⟨hfresh.single, hfresh.next_head, hfresh.next_blk, hfresh.prev_head, hfresh.prev_blk,
        fun blk => (hlast blk).trans (hfresh.unwritten blk)⟩
  case oldest =>
    refine h.oldest.imp fun {x y} hle => ?_
    rw [hage, hage]
    exact Nat.succ_le_succ hle
  case chains => exact h.chains
  case mem =>
    intro key blk
    rw [hlast]
    exact h.mem key blk
  case newest =>
    intro key
    refine (h.newest key).imp fun {x y} hle => ?_
    rw [hwage, hwage]
    exact Nat.succ_le_succ hle
  case data =>
    intro blk data size hwritten
    rw [hlast] at hwritten
    exact h.data blk data size hwritten
  case unlinked =>
    intro blk hnone
    rw [hlast] at hnone
    exact h.unlinked blk hnone

theorem searchLoop_eq (unicode : UInt16) {rounds : Nat}
    (hring : LinkRing.Ring cache.hashNext cache.hashPrev (.head key) ((l ++ m).map .blk)) (hrounds : m.length < rounds)
    : cache.searchLoop unicode key rounds ((m.map HashPtr.blk).head?.getD (.head key))
      = some (m.find? fun i => (cache.data i).unicode = unicode) := by
  induction m generalizing l rounds with
  | nil =>
    cases rounds with
    | zero => exact absurd hrounds (Nat.lt_irrefl 0)
    | succ rounds => exact if_pos rfl
  | cons i m ih =>
    cases rounds with
    | zero => exact absurd hrounds (Nat.not_lt_zero _)
    | succ rounds =>
      have hnext : cache.hashNext (.blk i) = (m.map HashPtr.blk).head?.getD (.head key) := by
        rw [map_append, map_cons] at hring
        exact hring.next_eq
      have hsplit : l ++ i :: m = (l ++ [i]) ++ m := by simp
      rw [hsplit] at hring
      change cache.searchLoop unicode key (rounds + 1) (.blk i) = _
      unfold GlyphCache.searchLoop
      rw [if_neg HashPtr.noConfusion]
      dsimp only
      rw [find?_cons]
      by_cases hfound : (cache.data i).unicode = unicode
      . rw [if_pos hfound, decide_eq_true hfound]
      . rw [if_neg hfound, decide_eq_false hfound, hnext]
        exact ih hring (Nat.lt_of_succ_lt_succ hrounds)

section

variable (h : Inv conf run blks chain)
include h

theorem Inv.length_chain (key : Nat) : (chain key).length < conf.nBlk + 1 := by
  have hsub : chain key ⊆ conf.blks := fun i hi => ((h.mem key i).mp hi).1
  have hle := ((h.nodup_chain key).subperm hsub).length_le
  unfold GlyphConf.blks at hle
  rw [length_map, length_range] at hle
  exact Nat.lt_succ_of_le hle

theorem Inv.search_eq (unicode : UInt16) : run.cache.ttcSearch conf (conf.nBlk + 1) unicode
      = match (chain (conf.makeHashKeyFunc unicode)).find? fun i => (run.cache.data i).unicode = unicode with
        | none => some (none, run.cache)
        | some i => some (some i, { run.cache with
            lruPrev := update run.cache.lruPrev (run.cache.lruNext (.blk i)) (run.cache.lruPrev (.blk i))
            lruNext := update run.cache.lruNext (run.cache.lruPrev (.blk i))
              (run.cache.lruNext (.blk i)) }.appendLru i) := by
  have hlt := conf.makeHashKeyFunc_lt unicode
  have hring := h.chains (conf.makeHashKeyFunc unicode)
  have hloop := searchLoop_eq (l := []) unicode hring (h.length_chain (conf.makeHashKeyFunc unicode))
  rw [← hring.next_head] at hloop
  unfold ttcSearch
  rw [if_neg (by omega), hloop]
  cases (chain (conf.makeHashKeyFunc unicode)).find? fun i => (run.cache.data i).unicode = unicode with
  | none => rfl
  | some i => rfl

theorem Inv.found (hb : b ∈ blks) (hsome : run.lastWrite b ≠ none)
    : ∃ blks', Inv conf ⟨{ run.cache with
        lruPrev := update run.cache.lruPrev (run.cache.lruNext (.blk b)) (run.cache.lruPrev (.blk b))
        lruNext := update run.cache.lruNext (run.cache.lruPrev (.blk b))
          (run.cache.lruNext (.blk b)) }.appendLru b, .found b :: run.history⟩ blks' chain := by
  obtain ⟨l, m, rfl⟩ := append_of_mem hb
  have hnodup : b ∉ l ++ m := (nodup_cons.mp (perm_middle.nodup_iff.mp h.nodup)).1
  have hring : LinkRing.Ring run.cache.lruNext run.cache.lruPrev .head ((l ++ b :: m).map .blk) := by
    rcases h.queue with hring | hfresh
    . exact hring
    . exact absurd (hfresh.unwritten b) hsome
  have hremove : LinkRing.Ring
      (update run.cache.lruNext (run.cache.lruPrev (.blk b)) (run.cache.lruNext (.blk b)))
      (update run.cache.lruPrev (run.cache.lruNext (.blk b)) (run.cache.lruPrev (.blk b)))
      .head ((l ++ m).map .blk) := by
    rw [map_append, map_cons] at hring
    rw [map_append]
    exact hring.remove
  have hnode : LruPtr.blk b ∉ LruPtr.head :: (l ++ m).map .blk := by
    intro hin
    rcases mem_cons.mp hin with heq | hin
    . exact LruPtr.noConfusion heq
    . obtain ⟨i, hi, heq⟩ := List.mem_map.mp hin
      obtain rfl := LruPtr.blk.inj heq
      exact hnodup hi
  have hconcat := hremove.concat hnode
  have hwage (blk : Int) (cache : GlyphCache)
      : writeAge ⟨cache, .found b :: run.history⟩ blk = run.writeAge blk + 1 := writeAge_cons run _ blk
  have hlast (blk : Int) (cache : GlyphCache) : lastWrite ⟨cache, .found b :: run.history⟩ blk = run.lastWrite blk :=
    lastWrite_cons run _ blk rfl
  refine ⟨l ++ m ++ [b], ?_⟩
  constructor
  case perm => exact ((perm_append_singleton b (l ++ m)).trans perm_middle.symm).trans h.perm
  case queue =>
    left
    rw [map_append]
    exact hconcat
  case oldest =>
    have hsub : Sublist (l ++ m) (l ++ b :: m) := by simp
    exact oldest_used _ (h.oldest.sublist hsub) hnodup fun _ => rfl
  case chains => exact h.chains
  case mem =>
    intro key blk
    rw [hlast]
    exact h.mem key blk
  case newest =>
    intro key
    refine (h.newest key).imp fun {x y} hle => ?_
    rw [hwage, hwage]
    exact Nat.succ_le_succ hle
  case data =>
    intro blk data size hwritten
    rw [hlast] at hwritten
    exact h.data blk data size hwritten
  case unlinked =>
    intro blk hnone
    rw [hlast] at hnone
    exact h.unlinked blk hnone

theorem Inv.lruMap
    (hring : LinkRing.Ring run.cache.lruNext run.cache.lruPrev .head (blks.map .blk)) : LruMap conf run := by
  constructor
  case ring => exact ⟨blks, h.perm, hring⟩
  case chains => exact ⟨chain, fun key => ⟨h.chains key, h.mem key⟩⟩
  case data => exact h.data
  case search =>
    intro unicode
    have hmem {blk : Int} (hblk : blk ∈ conf.blks) {data : TtfCacheInfo} {size : Int}
        (hwrite : run.lastWrite blk = some (data, size)) (heq : data.unicode = unicode)
        : blk ∈ chain (conf.makeHashKeyFunc unicode) ∧ (run.cache.data blk).unicode = unicode := by
      refine ⟨(h.mem _ blk).mpr ⟨hblk, data, size, hwrite, by rw [heq]⟩, ?_⟩
      rw [(h.data blk data size hwrite).1]
      exact heq
    rw [h.search_eq]
    cases hfind : (chain (conf.makeHashKeyFunc unicode)).find? fun i => (run.cache.data i).unicode = unicode with
    | none =>
      intro blk hblk data size hwrite heq
      obtain ⟨hin, hunicode⟩ := hmem hblk hwrite heq
      exact absurd (decide_eq_true hunicode) (find?_eq_none.mp hfind blk hin)
    | some b =>
      obtain ⟨hunicode, before, behind, hsplit, hbefore⟩ := find?_eq_some_iff_append.mp hfind
      have hb : b ∈ chain (conf.makeHashKeyFunc unicode) := mem_of_find?_eq_some hfind
      obtain ⟨hblk, data, size, hwrite, -⟩ := (h.mem _ b).mp hb
      refine ⟨hblk, ⟨data, size, hwrite, ?_⟩, ?_⟩
      . rw [← (h.data b data size hwrite).1]
        exact of_decide_eq_true hunicode
      intro blk' hblk' data' size' hwrite' heq'
      obtain ⟨hin, hunicode'⟩ := hmem hblk' hwrite' heq'
      have hnewest := h.newest (conf.makeHashKeyFunc unicode)
      rw [hsplit] at hin hnewest
      rcases mem_append.mp hin with hin | hin
      . have hnot := hbefore blk' hin
        rw [decide_eq_true hunicode'] at hnot
        exact nomatch hnot
      . rcases mem_cons.mp hin with rfl | hin
        . exact Nat.le_refl _
        . exact (pairwise_cons.mp (pairwise_append.mp hnewest).2.1).1 blk' hin
  case write =>
    intro data size hsize
    obtain ⟨b, m, picked, rfl, -, hwrite⟩ := h.write_eq data hsize
    refine ⟨b, h.perm.mem_iff.mp mem_cons_self, by rw [hwrite], ?_⟩
    intro blk' hblk'
    rcases mem_cons.mp (h.perm.mem_iff.mpr hblk') with rfl | hin
    . exact Nat.le_refl _
    . exact (pairwise_cons.mp h.oldest).1 blk' hin

end

theorem Inv.step (h : Inv conf run blks chain) (call : CacheCall)
    : ∃ blks' chain', Inv conf (run.step conf call) blks' chain' := by
  cases call with
  | search unicode =>
    unfold CacheRun.step
    dsimp only
    rw [h.search_eq]
    cases hfind : (chain (conf.makeHashKeyFunc unicode)).find? fun i => (run.cache.data i).unicode = unicode with
    | none => exact ⟨blks, chain, h.quiet (fun _ => rfl) (fun _ => rfl)⟩
    | some b =>
      obtain ⟨hblk, data, size, hwrite, -⟩ := (h.mem _ b).mp (mem_of_find?_eq_some hfind)
      obtain ⟨blks', hinv⟩ := h.found (h.perm.mem_iff.mpr hblk) (by
        rw [hwrite]
        exact Option.some_ne_none _)
      exact ⟨blks', chain, hinv⟩
  | write data size =>
    by_cases hsize : conf.blkSize < size
    . unfold CacheRun.step ttcWrite
      dsimp only
      rw [if_pos hsize]
      exact ⟨blks, chain, h.quiet (fun _ => rfl) (fun _ => rfl)⟩
    . obtain ⟨blks', chain', hinv, -⟩ := h.write data (Int.not_lt.mp hsize)
      exact ⟨blks', chain', hinv⟩

theorem lastWrite_kept (event : CacheEvent) {blk : Int} (h : run.lastWrite blk ≠ none) (cache : GlyphCache)
    : lastWrite ⟨cache, event :: run.history⟩ blk ≠ none := by
  by_cases hwrites : event.writes blk = false
  . exact fun hnone => h ((lastWrite_cons run event blk hwrites).symm.trans hnone)
  cases event with
  | wrote blk' data size =>
    obtain rfl : blk' = blk := by
      by_contra hne
      exact hwrites (decide_eq_false hne)
    exact fun hnone => nomatch (lastWrite_wrote run blk' data size).symm.trans hnone
  | missed | found | failed | stuck => exact absurd rfl hwrites

theorem step_history (conf : GlyphConf) (run : CacheRun) (call : CacheCall)
    : ∃ event, (run.step conf call).history = event :: run.history := by
  unfold step
  cases call with
  | search unicode =>
    dsimp only
    split
    . exact ⟨_, rfl⟩
    . exact ⟨_, rfl⟩
    . exact ⟨_, rfl⟩
  | write data size =>
    dsimp only
    split
    . exact ⟨_, rfl⟩
    . exact ⟨_, rfl⟩

theorem step_written (call : CacheCall) (h : ∃ blk, run.lastWrite blk ≠ none)
    : ∃ blk, (run.step conf call).lastWrite blk ≠ none := by
  obtain ⟨blk, hblk⟩ := h
  obtain ⟨event, hhistory⟩ := step_history conf run call
  refine ⟨blk, fun hnone => lastWrite_kept event hblk run.cache ?_⟩
  unfold lastWrite at hnone ⊢
  rwa [hhistory] at hnone

theorem after_concat (conf : GlyphConf) (calls : List CacheCall) (call : CacheCall)
    : after conf (calls ++ [call]) = (after conf calls).step conf call := by
  unfold after
  rw [foldl_append]
  rfl

theorem after_inv (conf : GlyphConf) (calls : List CacheCall)
    : (∃ blks chain, Inv conf (after conf calls) blks chain)
      ∧ ((∃ call ∈ calls, call.Stores conf) → ∃ blk, (after conf calls).lastWrite blk ≠ none) := by
  induction calls using reverseRecOn with
  | nil => exact ⟨⟨_, _, inv_create conf⟩, fun ⟨_, hin, _⟩ => nomatch hin⟩
  | append_singleton calls call ih =>
    obtain ⟨⟨blks, chain, hinv⟩, hwritten⟩ := ih
    rw [after_concat]
    refine ⟨hinv.step call, ?_⟩
    rintro ⟨stores, hin, hstores⟩
    rcases mem_append.mp hin with hin | hin
    . exact step_written call (hwritten ⟨stores, hin, hstores⟩)
    obtain rfl := mem_singleton.mp hin
    cases stores with
    | search unicode => exact hstores.elim
    | write data size =>
      obtain ⟨b, m, picked, -, -, hwrite⟩ := hinv.write_eq data hstores
      refine ⟨b, fun hnone => ?_⟩
      unfold step at hnone
      dsimp only at hnone
      rw [hwrite] at hnone
      exact nomatch (lastWrite_wrote (after conf calls) b data size).symm.trans hnone

theorem after_unstored (conf : GlyphConf) (calls : List CacheCall) (h : ∀ call ∈ calls, ¬call.Stores conf)
    : Inv conf (after conf calls) conf.blks (fun _ => []) ∧ (after conf calls).cache = .create conf := by
  induction calls using reverseRecOn with
  | nil => exact ⟨inv_create conf, rfl⟩
  | append_singleton calls call ih =>
    obtain ⟨hinv, hcache⟩ := ih fun call hin => h call (mem_append_left _ hin)
    have hcall := h call (mem_append_right _ mem_cons_self)
    rw [after_concat]
    cases call with
    | search unicode =>
      unfold step
      dsimp only
      rw [hinv.search_eq]
      exact ⟨hinv.quiet (fun _ => rfl) (fun _ => rfl), hcache⟩
    | write data size =>
      have hsize : conf.blkSize < size := Int.not_le.mp hcall
      unfold step ttcWrite
      dsimp only
      rw [if_pos hsize]
      exact ⟨hinv.quiet (fun _ => rfl) (fun _ => rfl), hcache⟩

theorem create_prev_blk (conf : GlyphConf) (h : conf.nBlk = 1) : (create conf).lruPrev (.blk 0) = .blk (-1) := by
  have hblk := (createCacheLruQueue_blk conf.nBlk (fun _ => .head, fun _ => .head) 0 conf.nBlk_pos).2
  have hbefore : blk (conf.nBlk - 2) = .blk (-1) := by
    congr 1
    omega
  rw [if_pos (by omega), hbefore] at hblk
  exact hblk

theorem not_lruMap_of_create (h : conf.nBlk = 1) (hcache : run.cache = .create conf) : ¬LruMap conf run := by
  intro hmap
  obtain ⟨blks, hperm, hring⟩ := hmap.ring
  have hconf : conf.blks = [0] := by
    unfold GlyphConf.blks
    rw [h]
    rfl
  rw [hconf] at hperm
  rw [perm_singleton.mp hperm, hcache] at hring
  have hprev : (create conf).lruPrev (.blk 0) = .head := hring.prev_eq (l := []) (m := [])
  rw [create_prev_blk conf h] at hprev
  exact LruPtr.noConfusion hprev

end CacheRun

/--
After every sequence of calls the cache is the map that it is to be, but for one with a single block in which nothing was
written yet.
-/
theorem lruMap_iff (conf : GlyphConf) (calls : List CacheCall)
    : LruMap conf (CacheRun.after conf calls) ↔ conf.nBlk ≠ 1 ∨ ∃ call ∈ calls, call.Stores conf := by
  constructor
  . intro hmap
    by_contra hnone
    obtain ⟨hone, hunstored⟩ := not_or.mp hnone
    have hcache := (CacheRun.after_unstored conf calls fun call hin hstores => hunstored ⟨call, hin, hstores⟩).2
    exact CacheRun.not_lruMap_of_create (not_not.mp hone) hcache hmap
  intro h
  obtain ⟨⟨blks, chain, hinv⟩, hwritten⟩ := CacheRun.after_inv conf calls
  refine hinv.lruMap ?_
  rcases hinv.queue with hring | hfresh
  . exact hring
  rcases h with hone | hstored
  . exact absurd hfresh.single hone
  . obtain ⟨blk, hblk⟩ := hwritten hstored
    exact absurd (hfresh.unwritten blk) hblk

def singleBlkConf : GlyphConf where
  nBlk := 1
  blkSize := 64
  nDir := 37
  makeHashKeyFunc unicode := unicode.toNat % 37
  nBlk_pos := Nat.one_pos
  makeHashKeyFunc_lt _ := Nat.mod_lt _ (by decide)

theorem not_lruMap_single : ¬ ∀ conf calls, LruMap conf (CacheRun.after conf calls) :=
  fun h => CacheRun.not_lruMap_of_create rfl rfl (h singleBlkConf [])

end MiniGui
