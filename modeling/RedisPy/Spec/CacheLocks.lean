import RedisPy.Library.Interleave
import RedisPy.Spec.ClientCache

/-! The locks of the caching layer (`redis/connection.py`): each `CacheProxyConnection`
has a `_cache_lock`, and the pool has the one lock that they all know. What a thread does
is followed from one lock or one read of a connection to the next; what the reads come to
is given from outside. -/

namespace RedisPy

namespace CacheLocks

open Interleave

/-- The so many-th `CacheProxyConnection` of the pool. -/
abbrev Proxy := Nat

inductive Lock where
  | _cache_lock (p : Proxy)
  | _pool_lock
  deriving DecidableEq, Repr

/-- The arguments of a `send_command`. -/
structure Command where
  name : String
  keys : Option (List KeyName)

/-- Where a connection is read, and what its thread does next. -/
inductive Read where
  /-- `_process_pending_invalidations` -/
  | pending (command : Command)
  /-- In `self._conn.send_command` of a command that is not cached, where a health check
  reads the reply to its PING. -/
  | checkingLocked
  /-- `while entry.connection_ref.can_read()` -/
  | draining (connection_ref : Proxy)
  /-- In `self._conn.send_command` of a command that is cached. -/
  | checking
  /-- In `self._conn.read_response` -/
  | responding

/-- Where a thread is. Each `with` has a place before it and one inside. -/
inductive Place where
  | idle
  | reading (r : Read)
  /-- At the `with` of `_on_invalidation_callback`. -/
  | handling (r : Read) (data : Invalidation)
  | invalidating (r : Read) (data : Invalidation)
  -- the blocks of `send_command`
  | atCachable (command : Command)
  | inCachable (command : Command)
  | atLookup (key : CacheKey)
  | inLookup (key : CacheKey)
  /-- At the `with self._pool_lock`, inside the block before. -/
  | atDrain (connection_ref : Proxy)
  -- the blocks of `read_response`
  | atCached
  | inCached
  | atStore (response : PyVal)
  | inStore (response : PyVal)
  -- `disconnect`
  | atFlush
  | inFlush
  -- `get_connection`, `release` and `disconnect` of the pool
  | atPool (connections : List Proxy)
  /-- `connections` are still to be disconnected. -/
  | inPool (connections : List Proxy)
  /-- At the `with self._cache_lock` of `connection.disconnect`, inside the block before. -/
  | atEach (connection : Proxy) (connections : List Proxy)
  | inEach (connection : Proxy) (connections : List Proxy)

/-- A thread, with the proxy it has got from the pool. -/
structure Thread where
  proxy : Proxy
  place : Place

/-- What comes of a read. -/
inductive Parsed where
  /-- There is nothing to read, or nothing is due any more. -/
  | nothing
  | push (data : Invalidation)
  | reply (v : PyVal)
  | raised

inductive Event where
  | send_command (command : Command)
  | read_response
  | disconnect
  /-- `get_connection`, `release` or `disconnect` of the pool, with the connections that it
  disconnects under its lock: none in `get_connection`, and in `release` none but one of
  another process. -/
  | pool (connections : List Proxy)
  | reads (r : Parsed)
  /-- The thread runs on: it gets the lock it is at, or leaves the block it is in. -/
  | runs

structure Shared where
  _cache : DefaultCache
  _current_command_cache_key : Proxy → Option CacheKey := fun _ => none
  locked : List Lock := []

namespace Thread

/-- The lock of the connection that is read. -/
def readLock (t : Thread) : Read → Lock
  | .draining connection_ref => ._cache_lock connection_ref
  | _ => ._cache_lock t.proxy

/-- The locks of the blocks around a read. -/
def heldReading (t : Thread) : Read → List Lock
  | .checkingLocked => [._cache_lock t.proxy]
  | .draining _ => [._pool_lock, ._cache_lock t.proxy]
  | _ => []

/-- The locks of the blocks a thread is in. -/
def held (t : Thread) : List Lock :=
  match t.place with
  | .reading r => t.heldReading r
  | .handling r _ => t.heldReading r
  | .invalidating r _ => t.readLock r :: t.heldReading r
  | .inCachable _ => [._cache_lock t.proxy]
  | .inLookup _ => [._cache_lock t.proxy]
  | .atDrain _ => [._cache_lock t.proxy]
  | .inCached => [._cache_lock t.proxy]
  | .inStore _ => [._cache_lock t.proxy]
  | .inFlush => [._cache_lock t.proxy]
  | .inPool _ => [._pool_lock]
  | .atEach _ _ => [._pool_lock]
  | .inEach connection _ => [._cache_lock connection, ._pool_lock]
  | _ => []

/-- The lock of the `with` a thread is at. -/
def wants (t : Thread) : Option Lock :=
  match t.place with
  | .handling r _ => some (t.readLock r)
  | .atCachable _ => some (._cache_lock t.proxy)
  | .atLookup _ => some (._cache_lock t.proxy)
  | .atDrain _ => some ._pool_lock
  | .atCached => some (._cache_lock t.proxy)
  | .atStore _ => some (._cache_lock t.proxy)
  | .atFlush => some (._cache_lock t.proxy)
  | .atPool _ => some ._pool_lock
  | .atEach connection _ => some (._cache_lock connection)
  | _ => none

end Thread

/-- After the block in which the cacheability of a command was asked. -/
def cachable (s : Shared) (p : Proxy) (command : Command) : Shared × Place :=
  if s._cache.isCachable { command := command.name, redis_keys := [] } then
    match command.keys with
    -- `ValueError`
    | none => (s, .idle)
    | some keys =>
      let key : CacheKey := { command := command.name, redis_keys := keys }
      ({ s with
          _current_command_cache_key := Function.update s._current_command_cache_key p (some key) },
        .atLookup key)
  else
    ({ s with _current_command_cache_key := Function.update s._current_command_cache_key p none },
      .reading .checkingLocked)

/-- The block in which the entry of a cacheable command is looked up, or set. -/
def lookup (s : Shared) (p : Proxy) (key : CacheKey) : Shared × Place :=
  match s._cache.get key with
  | (some entry, d) =>
    ({ s with _cache := d },
      if entry.connection_ref ≠ p then .atDrain entry.connection_ref else .idle)
  | (none, d) =>
    ({ s with
        _cache := d.set
          { cache_key := key
            -- `DUMMY_CACHE_VALUE`
            cache_value := .bytes (List.map ascii "foo".toList)
            status := .IN_PROGRESS
            connection_ref := p } },
      .reading .checking)

/-- The first block of `read_response`: a valid entry is the response. -/
def cached (s : Shared) (p : Proxy) : Shared × Place :=
  match s._current_command_cache_key p with
  | none => (s, .reading .responding)
  | some key =>
    match s._cache.get key with
    | (none, d) => ({ s with _cache := d }, .reading .responding)
    | (some entry, d) =>
      ({ s with _cache := d },
        if entry.status = .IN_PROGRESS then .reading .responding else .idle)

/-- The last block of `read_response`. -/
def store (s : Shared) (p : Proxy) (response : PyVal) : Shared :=
  match s._current_command_cache_key p with
  | none => s
  | some key =>
    match response with
    | .none => { s with _cache := s._cache.deleteByCacheKey key }
    | response =>
      match s._cache.get key with
      | (none, d) => { s with _cache := d }
      | (some entry, d) =>
        { s with _cache := d.set { entry with status := .VALID, cache_value := response } }

/-- The next place of a thread, and what becomes of the cache on the way. -/
def move (s : Shared) (t : Thread) : Event → Option (Shared × Place)
  | .send_command command =>
    match t.place with
    | .idle => some (s, .reading (.pending command))
    | _ => none
  | .read_response =>
    match t.place with
    | .idle => some (s, .atCached)
    | _ => none
  | .disconnect =>
    match t.place with
    | .idle => some (s, .atFlush)
    | _ => none
  | .pool connections =>
    match t.place with
    | .idle => some (s, .atPool connections)
    | _ => none
  | .reads (.push data) =>
    match t.place with
    | .reading r => some (s, .handling r data)
    | _ => none
  | .reads .raised =>
    match t.place with
    | .reading _ => some (s, .idle)
    | _ => none
  | .reads .nothing =>
    match t.place with
    | .reading (.pending command) => some (s, .atCachable command)
    | .reading .responding => none
    | .reading _ => some (s, .idle)
    | _ => none
  | .reads (.reply v) =>
    match t.place with
    | .reading .responding => some (s, .atStore v)
    | .reading r => some (s, .reading r)
    | _ => none
  | .runs =>
    match t.place with
    | .handling r data => some (s, .invalidating r data)
    | .invalidating r data =>
      match s._cache.invalidate data with
      | (.ok (), d) => some ({ s with _cache := d }, .reading r)
      -- the error ends the read
      | (.error _, d) => some ({ s with _cache := d }, .idle)
    | .atCachable command => some (s, .inCachable command)
    | .inCachable command => some (cachable s t.proxy command)
    | .atLookup key => some (s, .inLookup key)
    | .inLookup key => some (lookup s t.proxy key)
    | .atDrain connection_ref => some (s, .reading (.draining connection_ref))
    | .atCached => some (s, .inCached)
    | .inCached => some (cached s t.proxy)
    | .atStore response => some (s, .inStore response)
    | .inStore response => some (store s t.proxy response, .idle)
    | .atFlush => some (s, .inFlush)
    | .inFlush => some ({ s with _cache := s._cache.flush }, .idle)
    | .atPool connections => some (s, .inPool connections)
    | .inPool [] => some (s, .idle)
    | .inPool (connection :: connections) => some (s, .atEach connection connections)
    | .atEach connection connections => some (s, .inEach connection connections)
    | .inEach _ connections => some ({ s with _cache := s._cache.flush }, .inPool connections)
    | .idle => none
    | .reading _ => none

/-- A lock that a thread wants is not to be had while it is locked, by whomever. -/
def Thread.Blocked (s : Shared) (t : Thread) : Prop := ∃ l, t.wants = some l ∧ l ∈ s.locked

instance (s : Shared) (t : Thread) : Decidable (t.Blocked s) :=
  match h : t.wants with
  | none => isFalse fun ⟨_, hl, _⟩ => by rw [h] at hl; cases hl
  | some l =>
    decidable_of_iff (l ∈ s.locked)
      ⟨fun hm => ⟨l, h, hm⟩, fun ⟨_, hl, hm⟩ => Option.some.inj (h.symm.trans hl) ▸ hm⟩

/-- One turn of a thread: the locks of the blocks it has left are free, and those of the
blocks it has entered are locked. -/
def resume (s : Shared) (t : Thread) (e : Event) : Option (Shared × Thread) :=
  if t.Blocked s then none
  else
    match move s t e with
    | none => none
    | some (s', place) =>
      let t' : Thread := { t with place := place }
      some ({ s' with locked := t'.held ++ s.locked.filter fun l => l ∉ t.held }, t')

/-- Threads that each have a proxy of one pool, with one cache. -/
def program : Program Proxy Shared Thread Event where
  start := fun p => { proxy := p, place := .idle }
  resume := resume

def init (cache : DefaultCache) : World Shared Thread where
  shared := { _cache := cache }
  tasks := []

end CacheLocks

end RedisPy
