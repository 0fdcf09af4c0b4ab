import RedisPy.Spec.ClientCache
import Mathlib.Logic.Function.Basic

/-! `CacheProxyConnection`s that share one cache (`redis/connection.py`). Each has a
`_cache_lock` of its own, so what the threads take in turns are the calls of the cache and the
reads of the connections. A read that ends otherwise than with a reply, an invalidation or a
`ResponseError` is left out, also by an error of `delete_by_redis_keys`. -/

namespace RedisPy

namespace SharedCache

/-- The arguments of a `send_command`. -/
structure Command where
  name : String
  keys : Option (List KeyName)

/-- Where a proxy is. A `key` is its `_current_command_cache_key`. -/
inductive Phase where
  | idle
  /-- `_process_pending_invalidations` -/
  | pending (command : Command)
  /-- Before the first `get` of `send_command`, -/
  | looking (key : CacheKey)
  /-- and before the second, after an entry was found. -/
  | found (key : CacheKey)
  /-- `while entry.connection_ref.can_read()` -/
  | draining (key : CacheKey) (connection_ref : Nat)
  /-- Before `set`, after no entry was found. -/
  | missed (key : CacheKey)
  | sending (key : CacheKey)
  /-- `send_command` has returned. -/
  | sent (key : Option CacheKey)
  /-- Before the `get` for the status of an entry that was found, -/
  | peeking (key : CacheKey)
  /-- and before the one for its value. -/
  | valid (key : CacheKey)
  /-- `self._conn.read_response` -/
  | reading (key : Option CacheKey)
  | answered (key : Option CacheKey) (response : PyVal)
  /-- Before the entry is set with the response. -/
  | marking (entry : CacheEntry) (response : PyVal)

structure Proxy where
  phase : Phase := .idle
  /-- The requests sent on the connection whose replies have not been read. -/
  owed : Nat := 0

/-- What a turn of a proxy comes to. -/
inductive Input where
  | send_command (command : Command)
  | read_response
  /-- `can_read()` is `False`. -/
  | quiet
  | push (data : Invalidation)
  | reply (v : PyVal)
  /-- A `ResponseError`. -/
  | error
  | runs

/-- A turn: the cache and the proxy after it, and what was sent and read. -/
structure Turn where
  _cache : DefaultCache
  phase : Phase
  /-- A request was sent on the proxy's own connection. -/
  sends : Bool := false
  /-- The connection that a reply was read from. -/
  replied : Option Nat := none

/-- The entry that is set before a command is sent. -/
def inProgress (key : CacheKey) (conn : Nat) : CacheEntry where
  cache_key := key
  -- `DUMMY_CACHE_VALUE`
  cache_value := .bytes (List.map ascii "foo".toList)
  status := .IN_PROGRESS
  connection_ref := conn

/-- The entry that is set with the response. -/
def filled (entry : CacheEntry) (response : PyVal) : CacheEntry :=
  { entry with status := .VALID, cache_value := response }

/-- An invalidation that was read on the way, in `phase`. -/
def invalidation (d : DefaultCache) (phase : Phase) (data : Invalidation) : Option Turn :=
  match d.invalidate data with
  | (.ok (), d') => some { _cache := d', phase := phase }
  | (.error _, _) => none

/-- `send_command`, from where the pending invalidations are processed. -/
def startSending (d : DefaultCache) (command : Command) : Turn :=
  if d.isCachable { command := command.name, redis_keys := [] } then
    match command.keys with
    -- `ValueError`
    | none => { _cache := d, phase := .idle }
    | some keys => { _cache := d, phase := .looking { command := command.name, redis_keys := keys } }
  else { _cache := d, phase := .sent none, sends := true }

/-- The next turn of the proxy of connection `conn`. -/
def turn (d : DefaultCache) (conn : Nat) : Phase → Input → Option Turn
  | .idle, .send_command command => some { _cache := d, phase := .pending command }
  | .pending command, .push data => invalidation d (.pending command) data
  | .pending command, .reply _ => some { _cache := d, phase := .pending command, replied := some conn }
  | .pending _, .error => some { _cache := d, phase := .idle, replied := some conn }
  | .pending command, .quiet => some (startSending d command)
  | .looking key, .runs =>
    match d.get key with
    | (none, d') => some { _cache := d', phase := .missed key }
    | (some _, d') => some { _cache := d', phase := .found key }
  | .found key, .runs =>
    match d.get key with
    -- `AttributeError`
    | (none, d') => some { _cache := d', phase := .idle }
    | (some entry, d') =>
      some
        { _cache := d'
          phase :=
            if entry.connection_ref ≠ conn then .draining key entry.connection_ref else .sent (some key) }
  | .draining key connection_ref, .push data => invalidation d (.draining key connection_ref) data
  | .draining key connection_ref, .reply _ =>
    some { _cache := d, phase := .draining key connection_ref, replied := some connection_ref }
  | .draining _ connection_ref, .error =>
    some { _cache := d, phase := .idle, replied := some connection_ref }
  | .draining key _, .quiet => some { _cache := d, phase := .sent (some key) }
  | .missed key, .runs => some { _cache := d.set (inProgress key conn), phase := .sending key }
  | .sending key, .runs => some { _cache := d, phase := .sent (some key), sends := true }
  | .sent none, .read_response => some { _cache := d, phase := .reading none }
  | .sent (some key), .read_response =>
    match d.get key with
    | (none, d') => some { _cache := d', phase := .reading (some key) }
    | (some _, d') => some { _cache := d', phase := .peeking key }
  | .peeking key, .runs =>
    match d.get key with
    -- `AttributeError`
    | (none, d') => some { _cache := d', phase := .idle }
    | (some entry, d') =>
      some
        { _cache := d'
          phase := if entry.status = .IN_PROGRESS then .reading (some key) else .valid key }
  -- the copy of its value is returned; an entry that is gone is an `AttributeError`
  | .valid key, .runs => some { _cache := (d.get key).2, phase := .idle }
  | .reading key, .push data => invalidation d (.reading key) data
  | .reading key, .reply v => some { _cache := d, phase := .answered key v, replied := some conn }
  | .reading _, .error => some { _cache := d, phase := .idle, replied := some conn }
  | .answered none _, .runs => some { _cache := d, phase := .idle }
  | .answered (some key) .none, .runs => some { _cache := d.deleteByCacheKey key, phase := .idle }
  | .answered (some key) response, .runs =>
    match d.get key with
    | (none, d') => some { _cache := d', phase := .idle }
    | (some entry, d') => some { _cache := d', phase := .marking entry response }
  | .marking entry response, .runs =>
    some { _cache := d.set (filled entry response), phase := .idle }
  | _, _ => none

/-- The proxies, by their connections. -/
structure Pool where
  _cache : DefaultCache
  proxies : Nat → Proxy := fun _ => {}

/-- A connection from which a reply is read, and one on which a request is sent. -/
def settled (t : Turn) (conn other owed : Nat) : Nat :=
  (if t.sends ∧ other = conn then owed + 1 else owed) - if t.replied = some other then 1 else 0

/-- The proxy of connection `i.1` takes a turn. One that cannot be taken changes nothing, like
the reading of a reply that is not owed. -/
def step (s : Pool) (i : Nat × Input) : Pool :=
  match turn s._cache i.1 (s.proxies i.1).phase i.2 with
  | none => s
  | some t =>
    if t.replied.any fun conn => (s.proxies conn).owed == 0 then s
    else
      { _cache := t._cache
        proxies := fun other =>
          { phase := if other = i.1 then t.phase else (s.proxies other).phase
            owed := settled t i.1 other (s.proxies other).owed } }

end SharedCache

end RedisPy
