import RedisPy.Spec.SharedCache

/-! The reads of one `CacheProxyConnection`, with the server at the other end: it answers at
moments of its own, between which anyone may write to it, and sends invalidations in order with
the replies. The connection takes its turns as in `SharedCache`, with nobody else on the cache. -/

namespace RedisPy

namespace CachedReads

open SharedCache

/-- A command with all its arguments. -/
structure Request where
  command : SharedCache.Command
  args : List String

/-- Its `CacheKey` -/
def Request.key (r : Request) : CacheKey where
  command := r.command.name
  redis_keys := r.command.keys.getD []

inductive Frame where
  | push (data : Invalidation)
  | reply (v : PyVal)

structure World where
  _cache : DefaultCache
  phase : Phase := .idle
  /-- The command that was called last. -/
  request : Request := { command := { name := "", keys := none }, args := [] }
  /-- The moment at the server. -/
  now : Nat := 0
  /-- What has been sent to the server and is not answered yet. -/
  pending : List Request := []
  /-- What the server has sent and the connection has not read, with its moments. -/
  inFlight : List (Nat × Frame) := []
  /-- The invalidations that have been processed, with the moments of the server. -/
  processed : List (Nat × Invalidation) := []
  /-- The request that was sent last to fill the entry of a key. -/
  asked : CacheKey → Option Request := fun _ => none

inductive Event where
  /-- Time passes at the server, in which anyone may write. -/
  | passes
  | serves
  | invalidates (data : Invalidation)
  | send_command (r : Request)
  | read_response
  /-- `can_read()` is `False`: what is in flight has not arrived. -/
  | quiet
  /-- The connection reads what comes next. -/
  | reads
  | runs

/-- What has been asked for, after the request under way is sent. -/
def World.asks (w : World) : Phase → CacheKey → Option Request
  | .sending key => Function.update w.asked key (some w.request)
  | _ => w.asked

/-- The connection takes a turn, if it can. -/
def take (w : World) (input : Input) : World :=
  match turn w._cache 0 w.phase input with
  | none => w
  | some t =>
    { w with
      _cache := t._cache
      phase := t.phase
      pending := if t.sends then w.pending ++ [w.request] else w.pending
      asked := if t.sends then w.asks w.phase else w.asked }

/-- One event. The server's answer to a request depends on the moment. -/
def step (answer : Nat → Request → PyVal) (w : World) : Event → World
  | .passes => { w with now := w.now + 1 }
  | .serves =>
    match w.pending with
    | [] => w
    | r :: pending =>
      { w with pending := pending, inFlight := w.inFlight ++ [(w.now, .reply (answer w.now r))] }
  | .invalidates data => { w with inFlight := w.inFlight ++ [(w.now, .push data)] }
  | .send_command r =>
    match w.phase with
    | .idle => take { w with request := r } (.send_command r.command)
    | _ => w
  | .read_response => take w .read_response
  | .quiet => take w .quiet
  | .reads =>
    match w.inFlight with
    | [] => w
    | (moment, .push data) :: inFlight =>
      if (turn w._cache 0 w.phase (.push data)).isSome then
        take { w with inFlight := inFlight, processed := w.processed ++ [(moment, data)] } (.push data)
      else w
    | (_, .reply v) :: inFlight =>
      if (turn w._cache 0 w.phase (.reply v)).isSome then
        take { w with inFlight := inFlight } (.reply v)
      else w
  | .runs => take w .runs

/-- What `read_response` returns in the turn. -/
def returned (w : World) : Event → Option PyVal
  | .runs =>
    match w.phase, (take w .runs).phase with
    | .valid key, _ => (w._cache.get key).1.map CacheEntry.cache_value
    | .answered _ v, .idle => some v
    | .marking _ v, _ => some v
    | _, _ => none
  | _ => none

end CachedReads

end RedisPy
