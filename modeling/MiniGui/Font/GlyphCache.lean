import MiniGui.Library.LinkRing

namespace MiniGui

open Function

inductive LruPtr where
  | head
  | blk (i : Int)
deriving DecidableEq, Repr

inductive HashPtr where
  | null
  | head (key : Nat)
  | blk (i : Int)
deriving DecidableEq, Repr

structure TtfCacheInfo where
  unicode : UInt16
  glyph : List UInt8
deriving DecidableEq

structure GlyphConf where
  nBlk : Nat
  blkSize : Int
  nDir : Nat
  makeHashKeyFunc : UInt16 → Nat
  nBlk_pos : 0 < nBlk
  makeHashKeyFunc_lt : ∀ unicode, makeHashKeyFunc unicode < nDir

structure GlyphCache where
  lruNext : LruPtr → LruPtr
  lruPrev : LruPtr → LruPtr
  hashNext : HashPtr → HashPtr
  hashPrev : HashPtr → HashPtr
  data : Int → TtfCacheInfo
  len : Int → Int

namespace GlyphCache

def linkBlks : Nat → (LruPtr → LruPtr) × (LruPtr → LruPtr) → (LruPtr → LruPtr) × (LruPtr → LruPtr)
  | 0, links => links
  | n + 1, links =>
    let links := linkBlks n links
    (update links.1 (.blk (n + 1)) (.blk (n + 2)), update links.2 (.blk (n + 1)) (.blk n))

def createCacheLruQueue (nblk : Nat) (links : (LruPtr → LruPtr) × (LruPtr → LruPtr))
    : (LruPtr → LruPtr) × (LruPtr → LruPtr) :=
  let links := (update links.1 (.blk 0) (.blk 1), update links.2 (.blk 0) .head)
  let links := linkBlks (nblk - 2) links
  let links := (update links.1 (.blk (nblk - 1)) .head, update links.2 (.blk (nblk - 1)) (.blk (nblk - 2)))
  (update links.1 .head (.blk 0), update links.2 .head (.blk (nblk - 1)))

def initHashDir : HashPtr → HashPtr
  | .head key => .head key
  | _ => .null

def create (conf : GlyphConf) : GlyphCache :=
  let links := createCacheLruQueue conf.nBlk (fun _ => .head, fun _ => .head)
  { lruNext := links.1
    lruPrev := links.2
    hashNext := initHashDir
    hashPrev := initHashDir
    data := fun _ => ⟨0, []⟩
    len := fun _ => 0 }

def pickOffBlk (cache : GlyphCache) : Option (Int × GlyphCache) :=
  match cache.lruNext .head with
  | .head => none
  | .blk i =>
    let lruNext := update cache.lruNext .head (cache.lruNext (.blk i))
    let picked := { cache with lruNext := lruNext, lruPrev := update cache.lruPrev (lruNext .head) .head }
    let hashNext := cache.hashNext (.blk i)
    let hashPrev := cache.hashPrev (.blk i)
    if hashNext ≠ .null ∧ hashPrev ≠ .null then
      some (i, { picked with
        hashNext := update cache.hashNext hashPrev hashNext
        hashPrev := update cache.hashPrev hashNext hashPrev })
    else
      some (i, picked)

def appendLru (cache : GlyphCache) (i : Int) : GlyphCache :=
  { cache with
    lruNext := update (update cache.lruNext (.blk i) .head) (cache.lruPrev .head) (.blk i)
    lruPrev := update (update cache.lruPrev (.blk i) (cache.lruPrev .head)) .head (.blk i) }

def appendBlk (cache : GlyphCache) (i : Int) (key : Nat) : GlyphCache :=
  let appended := cache.appendLru i
  let first := cache.hashNext (.head key)
  { appended with
    hashNext := update (update cache.hashNext (.blk i) first) (.head key) (.blk i)
    hashPrev := update (update cache.hashPrev first (.blk i)) (.blk i) (.head key) }

/--
The loop of `__mg_ttc_search`, from a block on. It finds a block, or comes to the head; none is a loop that goes on.
-/
def searchLoop (cache : GlyphCache) (unicode : UInt16) (key : Nat) : Nat → HashPtr → Option (Option Int)
  | 0, _ => none
  | rounds + 1, blk =>
    if blk = .head key then
      some none
    else
      match blk with
      | .blk i =>
        if (cache.data i).unicode = unicode then
          some (some i)
        else
          searchLoop cache unicode key rounds (cache.hashNext (.blk i))
      | _ => none

def ttcSearch (conf : GlyphConf) (rounds : Nat) (cache : GlyphCache) (unicode : UInt16)
    : Option (Option Int × GlyphCache) :=
  let key := conf.makeHashKeyFunc unicode
  if (key : Int) > conf.nDir - 1 then
    some (none, cache)
  else
    match cache.searchLoop unicode key rounds (cache.hashNext (.head key)) with
    | none => none
    | some none => some (none, cache)
    | some (some i) =>
      let blkNext := cache.lruNext (.blk i)
      let blkPrev := cache.lruPrev (.blk i)
      let picked := { cache with
        lruPrev := update cache.lruPrev blkNext blkPrev
        lruNext := update cache.lruNext blkPrev blkNext }
      some (some i, picked.appendLru i)

def ttcWrite (conf : GlyphConf) (cache : GlyphCache) (data : TtfCacheInfo) (size : Int) : Option Int × GlyphCache :=
  if conf.blkSize < size then
    (none, cache)
  else
    let key := conf.makeHashKeyFunc data.unicode
    match cache.pickOffBlk with
    | none => (none, cache)
    | some (i, picked) =>
      let written := { picked with
        data := update picked.data i data
        len := update picked.len i size }
      (some i, written.appendBlk i key)

end GlyphCache

inductive CacheCall where
  | search (unicode : UInt16)
  | write (data : TtfCacheInfo) (size : Int)

inductive CacheEvent where
  | missed
  | found (blk : Int)
  | wrote (blk : Int) (data : TtfCacheInfo) (size : Int)
  | failed
  | stuck

def CacheEvent.writes (blk : Int) : CacheEvent → Bool
  | .wrote blk' _ _ => blk' = blk
  | _ => false

def CacheEvent.uses (blk : Int) : CacheEvent → Bool
  | .wrote blk' _ _ => blk' = blk
  | .found blk' => blk' = blk
  | _ => false

structure CacheRun where
  cache : GlyphCache
  history : List CacheEvent

namespace CacheRun

variable (conf : GlyphConf) (run : CacheRun)

def lastWrite (blk : Int) : Option (TtfCacheInfo × Int) :=
  run.history.findSome? fun event => match event with
    | .wrote blk' data size => if blk' = blk then some (data, size) else none
    | _ => none

/--
How many events ago a block was written, or used. One that never was is older than all of them.
-/
def writeAge (blk : Int) : Nat :=
  run.history.findIdx (CacheEvent.writes blk)

def useAge (blk : Int) : Nat :=
  run.history.findIdx (CacheEvent.uses blk)

def step : CacheCall → CacheRun
  | .search unicode =>
    match run.cache.ttcSearch conf (conf.nBlk + 1) unicode with
    | none => { run with history := .stuck :: run.history }
    | some (none, cache) => ⟨cache, .missed :: run.history⟩
    | some (some blk, cache) => ⟨cache, .found blk :: run.history⟩
  | .write data size =>
    match run.cache.ttcWrite conf data size with
    | (none, cache) => ⟨cache, .failed :: run.history⟩
    | (some blk, cache) => ⟨cache, .wrote blk data size :: run.history⟩

def after (calls : List CacheCall) : CacheRun :=
  calls.foldl (step conf) ⟨.create conf, []⟩

end CacheRun

def GlyphConf.blks (conf : GlyphConf) : List Int :=
  (List.range conf.nBlk).map Int.ofNat

structure LruMap (conf : GlyphConf) (run : CacheRun) : Prop where
  ring : ∃ blks : List Int, blks.Perm conf.blks ∧ LinkRing.Ring run.cache.lruNext run.cache.lruPrev .head (blks.map .blk)
  chains : ∃ chain : Nat → List Int, ∀ key,
    LinkRing.Ring run.cache.hashNext run.cache.hashPrev (.head key) ((chain key).map .blk)
      ∧ ∀ blk, blk ∈ chain key ↔ blk ∈ conf.blks
        ∧ ∃ data size, run.lastWrite blk = some (data, size) ∧ conf.makeHashKeyFunc data.unicode = key
  data : ∀ blk data size, run.lastWrite blk = some (data, size) → run.cache.data blk = data ∧ run.cache.len blk = size
  search : ∀ unicode, match run.cache.ttcSearch conf (conf.nBlk + 1) unicode with
    | none => False
    | some (none, _) => ∀ blk ∈ conf.blks, ∀ data size, run.lastWrite blk = some (data, size) → data.unicode ≠ unicode
    | some (some blk, _) => blk ∈ conf.blks
      ∧ (∃ data size, run.lastWrite blk = some (data, size) ∧ data.unicode = unicode)
      ∧ ∀ blk' ∈ conf.blks, ∀ data size, run.lastWrite blk' = some (data, size) → data.unicode = unicode →
        run.writeAge blk ≤ run.writeAge blk'
  write : ∀ data size, size ≤ conf.blkSize → ∃ blk ∈ conf.blks, (run.cache.ttcWrite conf data size).1 = some blk
    ∧ ∀ blk' ∈ conf.blks, run.useAge blk' ≤ run.useAge blk

def CacheCall.Stores (conf : GlyphConf) : CacheCall → Prop
  | .search _ => False
  | .write _ size => size ≤ conf.blkSize

end MiniGui
