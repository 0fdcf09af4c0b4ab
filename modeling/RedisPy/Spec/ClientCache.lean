import RedisPy.Library.Keyed
import RedisPy.Library.Raising
import RedisPy.Spec.Text

/-! `DefaultCache` with its LRU policy (`redis/cache.py`) and the `CacheProxyConnection`
of `redis/connection.py` that uses it. The connection below is what can be read from it,
frame by frame. -/

namespace RedisPy

/-- The name of a redis key, as a caller gives it or the parser returns it. -/
inductive KeyName where
  | str (s : String)
  | bytes (b : Bytes)
  deriving DecidableEq, Repr

/-- The conversion at the head of the loop of `delete_by_redis_keys`: bytes are decoded. -/
def KeyName.decoded : KeyName → Except Exc KeyName
  | str s => .ok (str s)
  | bytes b =>
    match decodeText b with
    | some s => .ok (str s)
    | none => .error { cls := .UnicodeDecodeError }

/-- `CacheKey`, with the names as the caller gave them. -/
structure CacheKey where
  command : String
  redis_keys : List KeyName
  deriving DecidableEq, Repr

inductive CacheEntryStatus where
  | VALID | IN_PROGRESS
  deriving DecidableEq, Repr

/-- `CacheEntry`; `connection_ref` is the so many-th connection of the pool. -/
structure CacheEntry where
  cache_key : CacheKey
  cache_value : PyVal
  status : CacheEntryStatus
  connection_ref : Nat

section

variable {α : Type} {cache_key : α → CacheKey}

/-- The first loop of `delete_by_redis_keys`: what it appends to `keys_to_delete` and to
`response`. -/
def collectKeys (cache : Keyed cache_key) (keys_to_delete : List CacheKey)
    (response : List Bool) : List KeyName → Except Exc (List CacheKey × List Bool)
  | [] => .ok (keys_to_delete, response)
  | redis_key :: redis_keys =>
    match redis_key.decoded with
    | .error e => .error e
    | .ok redis_key =>
      let found := cache.keys.filter fun key => redis_key ∈ key.redis_keys
      collectKeys cache (keys_to_delete ++ found) (response ++ found.map fun _ => true) redis_keys

/-- The second loop: `self._cache.pop(key)`, a `KeyError` where the key is gone. -/
def popKeys (cache : Keyed cache_key) : List CacheKey → Except Exc Unit × Keyed cache_key
  | [] => (.ok (), cache)
  | key :: keys =>
    if cache.contains key then popKeys (cache.erase key) keys
    else (.error { cls := .KeyError }, cache)

def deleteByRedisKeys (cache : Keyed cache_key) (redis_keys : List KeyName) :
    Except Exc (List Bool) × Keyed cache_key :=
  match collectKeys cache [] [] redis_keys with
  | .error e => (.error e, cache)
  | .ok (keys_to_delete, response) =>
    match popKeys cache keys_to_delete with
    | (.ok (), cache) => (.ok response, cache)
    | (.error e, cache) => (.error e, cache)

end

/-- `DefaultCache`, its `CacheConfig` included: the entry used longest ago comes first. -/
structure DefaultCache where
  _cache : Keyed CacheEntry.cache_key
  max_size : Nat
  /-- `DEFAULT_ALLOW_LIST` -/
  allow_list : List String

namespace DefaultCache

variable (d : DefaultCache)

def isCachable (key : CacheKey) : Bool := key.command ∈ d.allow_list

/-- `LRUPolicy.touch` of an entry that is there -/
def touch (entry : CacheEntry) : DefaultCache :=
  { d with _cache := (d._cache.erase entry.cache_key).put entry }

def evictNext : DefaultCache :=
  match d._cache.items with
  | [] => d
  | entry :: _ => { d with _cache := d._cache.erase entry.cache_key }

def set (entry : CacheEntry) : DefaultCache :=
  if d.isCachable entry.cache_key then
    let d := d.touch entry
    if d.max_size < d._cache.items.length then d.evictNext else d
  else d

/-- `get`, which counts as a use. -/
def get (key : CacheKey) : Option CacheEntry × DefaultCache :=
  match d._cache.get? key with
  | none => (none, d)
  | some entry => (some entry, d.touch entry)

/-- `delete_by_cache_keys([key])` -/
def deleteByCacheKey (key : CacheKey) : DefaultCache := { d with _cache := d._cache.erase key }

def deleteByRedisKeys (redis_keys : List KeyName) : Except Exc (List Bool) × DefaultCache :=
  let (r, cache) := RedisPy.deleteByRedisKeys d._cache redis_keys
  (r, { d with _cache := cache })

def flush : DefaultCache := { d with _cache := ∅ }

end DefaultCache

/-- `data[1]` of an invalidation push: the redis keys, or `None` for all of them. -/
abbrev Invalidation := Option (List KeyName)

/-- What an invalidation does to the cache. -/
def DefaultCache.invalidate (d : DefaultCache) : Invalidation → Except Exc Unit × DefaultCache
  | none => (.ok (), d.flush)
  | some redis_keys =>
    let (r, d) := d.deleteByRedisKeys redis_keys
    (r.map fun _ => (), d)

/-- What a connection has received. -/
inductive CacheFrame where
  | push (data : Invalidation)
  | reply (v : PyVal)
  | errorReply (e : Exc) (h : e.isinstance .ResponseError = true)

/-- What a read of the frame returns, or raises. -/
def CacheFrame.response : CacheFrame → Option (Except Exc PyVal)
  | push _ => none
  | reply v => some (.ok v)
  | errorReply e _ => some (.error e)

/-- Who sent the command that a response is due for. In a pipeline it is the so many-th that
has been sent on the connection. -/
inductive Sender where
  | send_command
  | send_packed_command (i : Nat)
  deriving DecidableEq, Repr

structure CacheProxyConnection where
  /-- `self._conn` -/
  _conn : Nat
  _cache : DefaultCache
  _current_command_cache_key : Option CacheKey := none
  /-- What `self._conn` has received and not read. -/
  received : List CacheFrame := []
  /-- How many commands have been sent on the connection. -/
  sent : Nat := 0
  /-- What the server has replied to them, one after the other. -/
  replies : List (Except Exc PyVal) := []
  /-- The commands whose `read_response` has not been called, the oldest first. -/
  due : List Sender := []
  /-- What `read_response` has stored so far. -/
  stored : List (CacheKey × PyVal) := []

namespace CacheProxyConnection

open Raising

abbrev M (β : Type) := EStateM Exc CacheProxyConnection β

/-- Use the cache. -/
def onCache {β : Type} (f : DefaultCache → β × DefaultCache) : M β := fun s =>
  .ok (f s._cache).1 { s with _cache := (f s._cache).2 }

def raises {β : Type} : Except Exc β → M β
  | .ok b => return b
  | .error e => throw e

/-- `_on_invalidation_callback`, which every proxy of the pool calls on the one cache. -/
def _onInvalidationCallback (data : Invalidation) : M Unit := do
  raises (← onCache fun d => d.invalidate data)

/-- `self._conn.disconnect()`: commands that have no reply yet will have none. -/
def connDisconnect : M Unit :=
  modify fun s => { s with received := [], sent := s.replies.length, due := [] }

/-- `self._conn.read_response`: pushes are handled on the way to the next reply. If there is
none the read ends in `lost`. -/
def connReadResponse (lost : Exc) : List CacheFrame → M PyVal
  | [] => do
    connDisconnect
    throw lost
  | .push data :: frames => do
    modify fun s => { s with received := frames }
    tryCatch (_onInvalidationCallback data) (fun e => do
      connDisconnect
      throw e)
    connReadResponse lost frames
  | .reply v :: frames => do
    modify fun s => { s with received := frames }
    return v
  | .errorReply e _ :: frames => do
    modify fun s => { s with received := frames }
    throw e

/-- `while c.can_read(): c.read_response(push_request=True)` for a connection `c` that has
received `frames`, where a push ends the reading of a response. -/
def drain (received : List CacheFrame → M Unit) (disconnect : M Unit) : List CacheFrame → M Unit
  | [] => return ()
  | .push data :: frames => do
    received frames
    tryCatch (_onInvalidationCallback data) (fun e => do
      disconnect
      throw e)
    drain received disconnect frames
  | .reply _ :: frames => do
    received frames
    drain received disconnect frames
  | .errorReply e _ :: frames => do
    received frames
    throw e

def _processPendingInvalidations : M Unit := do
  drain (fun frames => modify fun s => { s with received := frames }) connDisconnect
    (← get).received

/-- `self._conn.send_command`, or `send_packed_command`, of `n` commands comes to `sent`. -/
def connSend (n : Nat) (sent : Except Exc Unit) : M Unit :=
  match sent with
  | .ok () => modify fun s => { s with sent := s.sent + n }
  | .error e => do
    connDisconnect
    throw e

/-- `send_packed_command` for a pipeline of `n` commands -/
def sendPackedCommand (n : Nat) (sent : Except Exc Unit) : M Unit := do
  let first := (← get).sent
  connSend n sent
  modify fun s => { s with due := s.due ++ (List.range' first n).map .send_packed_command }

/-- `send_command`; `elsewhere` is what the connection that an entry came from has received. -/
def sendCommand (command : String) (keys : Option (List KeyName)) (elsewhere : List CacheFrame)
    (sent : Except Exc Unit) : M Unit := do
  _processPendingInvalidations
  if !(← get)._cache.isCachable { command := command, redis_keys := [] } then
    modify fun s => { s with _current_command_cache_key := none }
    connSend 1 sent
  else
    match keys with
    | none => throw { cls := .ValueError, msg := "Cannot create cache key." }
    | some keys =>
      let key : CacheKey := { command := command, redis_keys := keys }
      modify fun s => { s with _current_command_cache_key := some key }
      match ← onCache fun d => d.get key with
      | some entry =>
        -- nothing is sent
        if entry.connection_ref ≠ (← get)._conn then drain (fun _ => return ()) (return ()) elsewhere
      | none =>
        let s ← get
        onCache fun d => ((), d.set
          { cache_key := key
            -- `DUMMY_CACHE_VALUE`
            cache_value := .bytes (List.map ascii "foo".toList)
            status := .IN_PROGRESS
            connection_ref := s._conn })
        connSend 1 sent
  modify fun s => { s with due := s.due ++ [.send_command] }

/-- The first part of `read_response`, under the lock: the value of a valid entry. -/
def cachedResponse : M (Option PyVal) := do
  match (← get)._current_command_cache_key with
  | none => return none
  | some key =>
    match ← onCache fun d => d.get key with
    | none => return none
    | some entry => return if entry.status = .IN_PROGRESS then none else some entry.cache_value

/-- The last part of `read_response`, under the lock: what becomes of the response. -/
def storeResponse (response : PyVal) : M Unit := do
  match (← get)._current_command_cache_key with
  | none => return ()
  | some key =>
    match response with
    | .none => onCache fun d => ((), d.deleteByCacheKey key)
    | response =>
      match ← onCache fun d => d.get key with
      | none => return ()
      | some entry =>
        onCache fun d => ((), d.set { entry with status := .VALID, cache_value := response })
        modify fun s => { s with stored := s.stored ++ [(key, response)] }

/-- `read_response` of a command. While the lock is free the others may make `meanwhile` of the cache. -/
def readResponse (lost : Exc) (meanwhile : Option (Keyed CacheEntry.cache_key)) : M PyVal := do
  modify fun s => { s with due := s.due.tail }
  match ← cachedResponse with
  | some v => return v
  | none =>
    let response ← connReadResponse lost (← get).received
    modify fun s => { s with _cache := { s._cache with _cache := meanwhile.getD s._cache._cache } }
    storeResponse response
    return response

end CacheProxyConnection

/-- What is done with the connection, and what happens around it. A read that finds no reply
does not end in one. -/
inductive CacheCall where
  | send_command (command : String) (keys : Option (List KeyName)) (elsewhere : List CacheFrame)
      (sent : Except Exc Unit)
  | send_packed_command (n : Nat) (sent : Except Exc Unit)
  | read_response (lost : Exc) (h : lost.isinstance .ResponseError = false)
      (meanwhile : Option (Keyed CacheEntry.cache_key))
  /-- The connection receives a frame. -/
  | receives (frame : CacheFrame)
  /-- The other connections of the pool make this of the cache. -/
  | others (cache : Keyed CacheEntry.cache_key)

namespace CacheProxyConnection

open Raising

def step (s : CacheProxyConnection) : CacheCall → CacheProxyConnection
  | .send_command command keys elsewhere sent => state ((sendCommand command keys elsewhere sent).run s)
  | .send_packed_command n sent => state ((sendPackedCommand n sent).run s)
  | .read_response lost _ meanwhile => state ((readResponse lost meanwhile).run s)
  | .receives frame =>
    match frame.response with
    | none => { s with received := s.received ++ [frame] }
    | some response =>
      -- the server replies to no command that it has not been sent
      if s.replies.length < s.sent then
        { s with received := s.received ++ [frame], replies := s.replies ++ [response] }
      else s
  | .others cache => { s with _cache := { s._cache with _cache := cache } }

end CacheProxyConnection

end RedisPy
