import RedisPy.Spec.ClientCache
import RedisPy.Library.LruMap

/-! The methods of `DefaultCache` and of the `LRUPolicy` object that shares its ordered
dictionary (`redis/cache.py`), call by call, and the bounded map they stand for. -/

namespace RedisPy

/-- Code that works on one cache. -/
abbrev CacheM := EStateM Exc DefaultCache

namespace LRUPolicy

def touch (cache_key : CacheKey) : CacheM Unit := do
  match (← get)._cache.get? cache_key with
  | none => throw { cls := .ValueError, msg := "Given entry does not belong to the cache" }
  | some entry => modify fun d => d.touch entry  -- `move_to_end`

/-- `evict_next`: `popitem(last=False)` -/
def evictNext : CacheM CacheKey := do
  match (← get)._cache.items with
  | [] => throw { cls := .KeyError, msg := "dictionary is empty" }
  | entry :: _ =>
    modify fun d => { d with _cache := d._cache.erase entry.cache_key }
    pure entry.cache_key

/-- The loop of `evict_many`. -/
def popMany : Nat → CacheM (List CacheKey)
  | 0 => pure []
  | n + 1 => do
    let popped ← evictNext
    pure (popped :: (← popMany n))

def evictMany (count : Int) : CacheM (List CacheKey) := do
  if count > (← get)._cache.items.length then
    throw { cls := .ValueError, msg := "Evictions count is above cache size" }
  else popMany count.toNat

end LRUPolicy

namespace CacheCalls

def set (entry : CacheEntry) : CacheM Bool := do
  if !(← get).isCachable entry.cache_key then pure false
  else
    modify fun d => { d with _cache := d._cache.put entry }
    LRUPolicy.touch entry.cache_key
    if (← get)._cache.items.length > (← get).max_size then
      discard LRUPolicy.evictNext
      pure true
    else pure true

def get (key : CacheKey) : CacheM (Option CacheEntry) := do
  match (← MonadState.get)._cache.get? key with
  | none => pure none
  | some entry =>
    LRUPolicy.touch key
    pure (some entry)

def deleteByCacheKeys : List CacheKey → CacheM (List Bool)
  | [] => pure []
  | key :: cache_keys => do
    match ← get key with
    | some _ =>
      modify fun d => { d with _cache := d._cache.erase key }
      pure (true :: (← deleteByCacheKeys cache_keys))
    | none => pure (false :: (← deleteByCacheKeys cache_keys))

def flush : CacheM Nat := do
  let elem_count := (← MonadState.get)._cache.items.length
  modify fun d => { d with _cache := ∅ }
  pure elem_count

end CacheCalls

/-- A call on a cache or on its policy. -/
inductive CacheOperation where
  | set (entry : CacheEntry)
  | get (key : CacheKey)
  | deleteByCacheKeys (cache_keys : List CacheKey)
  | flush
  | evictNext
  | evictMany (count : Int)

namespace CacheOperation

/-- The cache after a program, whether it returns or raises. -/
def after {α : Type} (m : CacheM α) (d : DefaultCache) : DefaultCache :=
  match m.run d with
  | .ok _ d' => d'
  | .error _ d' => d'

/-- The cache after a call. -/
def perform (d : DefaultCache) : CacheOperation → DefaultCache
  | set entry => after (CacheCalls.set entry) d
  | get key => after (CacheCalls.get key) d
  | deleteByCacheKeys cache_keys => after (CacheCalls.deleteByCacheKeys cache_keys) d
  | flush => after CacheCalls.flush d
  | evictNext => after LRUPolicy.evictNext d
  | evictMany count => after (LRUPolicy.evictMany count) d

/-- The reference: what the same call does to a map of that capacity. A call that asks for
more evictions than there are entries is refused. -/
noncomputable def refer (max_size : Nat) (allow_list : List String) (m : LruMap CacheEntry) :
    CacheOperation → LruMap CacheEntry
  | set entry =>
    if entry.cache_key.command ∈ allow_list then m.insert CacheEntry.cache_key max_size entry else m
  | get key => m.touch CacheEntry.cache_key key
  | deleteByCacheKeys cache_keys => m.remove CacheEntry.cache_key {k | k ∈ cache_keys}
  | flush => LruMap.empty
  | evictNext => m.evict 1
  | evictMany count => if count > m.size then m else m.evict count.toNat

end CacheOperation

end RedisPy
