import Mathlib
import RedisPy.Library.Raising
import RedisPy.Spec.Exceptions

/-! `ConnectionPool` and `BlockingConnectionPool` (`redis/connection.py`) in a
process and its forked children. What opening and checking a connection comes to
is given from outside; a connection has no socket here. -/

namespace RedisPy

open Raising

/-- A connection object, and the process that made it. -/
structure Connection where
  id : Nat
  pid : Nat
  deriving DecidableEq, Repr

/-- What the constructor of `connection_class` comes to, and then `connect` and
`can_read`, which are called twice at most. -/
structure Outcomes where
  construct : Except Exc Unit := .ok ()
  connect : Except Exc Unit := .ok ()
  can_read : Except Exc Bool := .ok false
  reconnect : Except Exc Unit := .ok ()
  can_read_again : Except Exc Bool := .ok false

/-- A process that has a pool. Connections stay `held` from the moment they are
handed out, in this process or before it was forked, until they are released here. -/
structure Process (π : Type) where
  pool : π
  /-- `os.getpid()` -/
  getpid : Nat
  ancestors : List Nat := []
  held : List Connection := []
  /-- How many connection objects there have been. -/
  constructed : Nat := 0

abbrev PoolM (π β : Type) := EStateM Exc (Process π) β

section
variable {π β : Type}

def raises : Except Exc β → PoolM π β
  | .ok b => return b
  | .error e => throw e

def setPool (f : π → π) : PoolM π Unit := modify fun s => { s with pool := f s.pool }

/-- `self.connection_class(**self.connection_kwargs)`, whose `pid` is `os.getpid()`. -/
def construct (env : Outcomes) : PoolM π Connection := do
  raises env.construct
  let s ← get
  set { s with constructed := s.constructed + 1 }
  return { id := s.constructed, pid := s.getpid }

/-- Open the connection and see that it is ready; `tolerant` is `self.cache is not None`
where the pool looks at that. -/
def ensureReady (env : Outcomes) (tolerant : Bool) : PoolM π Unit := do
  raises env.connect
  tryCatch
    (do
      if (← raises env.can_read) && !tolerant then
        throw { cls := .ConnectionError, msg := "Connection has data" })
    (fun e => do
      if e.isinstanceAny [.ConnectionError, .OSError] then
        -- `connection.disconnect()` raises nothing
        raises env.reconnect
        if ← raises env.can_read_again then
          throw { cls := .ConnectionError, msg := "Connection not ready" }
      else throw e)

end

/-- What is done with a pool, as its users see it. -/
inductive PoolCall where
  | get_connection (env : Outcomes)
  | release (c : Connection)
  | disconnect
  | reset
  /-- The process forks and the child is followed, which inherits `_fork_lock`. -/
  | fork (pid : Nat) (locked : Bool)

/-- A connection is released by a process that holds it, and a child has a pid of its own. -/
def PoolCall.Allowed {π : Type} (s : Process π) : PoolCall → Prop
  | .release c => c ∈ s.held
  | .fork pid _ => pid ≠ s.getpid ∧ pid ∉ s.ancestors
  | _ => True

instance {π : Type} (s : Process π) : (i : PoolCall) → Decidable (i.Allowed s)
  | .release c => inferInstanceAs (Decidable (c ∈ s.held))
  | .fork pid _ => inferInstanceAs (Decidable (pid ≠ s.getpid ∧ pid ∉ s.ancestors))
  | .get_connection _ => isTrue trivial
  | .disconnect => isTrue trivial
  | .reset => isTrue trivial

/-! ### ConnectionPool -/

structure ConnectionPool where
  max_connections : Nat
  /-- `self.cache is not None` -/
  cache : Bool
  _created_connections : Int
  _available_connections : List Connection
  _in_use_connections : List Connection
  pid : Nat
  /-- Another process's thread holds `_fork_lock`. -/
  _fork_lock : Bool

namespace ConnectionPool

abbrev M (β : Type) := PoolM ConnectionPool β

def reset : M Unit := modify fun s =>
  { s with pool := { s.pool with
    _created_connections := 0
    _available_connections := []
    _in_use_connections := []
    pid := s.getpid } }

/-- `__init__`, in a process of the given pid. -/
def init (max_connections : Nat) (cache : Bool) (getpid : Nat) : Process ConnectionPool where
  pool :=
    { max_connections := if max_connections = 0 then 2 ^ 31 else max_connections
      cache := cache
      _created_connections := 0
      _available_connections := []
      _in_use_connections := []
      pid := getpid
      _fork_lock := false }
  getpid := getpid

def _checkpid : M Unit := do
  let s ← get
  if s.pool.pid ≠ s.getpid then
    if s.pool._fork_lock then throw { cls := .ChildDeadlockedError }
    reset

def makeConnection (env : Outcomes) : M Connection := do
  let s ← get
  if s.pool.max_connections ≤ s.pool._created_connections then
    throw { cls := .ConnectionError, msg := "Too many connections" }
  setPool fun p => { p with _created_connections := p._created_connections + 1 }
  construct env

def ownsConnection (pool : ConnectionPool) (c : Connection) : Bool := c.pid = pool.pid

def release (c : Connection) : M Unit := do
  _checkpid
  setPool fun p => { p with _in_use_connections := p._in_use_connections.erase c }
  if (← get).pool.ownsConnection c then
    setPool fun p => { p with _available_connections := p._available_connections ++ [c] }
  else
    setPool fun p => { p with _created_connections := p._created_connections - 1 }

/-- The part of `get_connection` that the lock protects. -/
def takeConnection (env : Outcomes) : M Connection := do
  let c ← match (← get).pool._available_connections.getLast? with
    | some c =>
      setPool fun p => { p with _available_connections := p._available_connections.dropLast }
      pure c
    | none => makeConnection env
  setPool fun p => { p with _in_use_connections := p._in_use_connections.insert c }
  return c

def getConnection (env : Outcomes) : M Connection := do
  _checkpid
  let c ← takeConnection env
  tryCatch (ensureReady env (← get).pool.cache) (fun e => do
    release c
    throw e)
  return c

/-- `disconnect`, which closes sockets and changes nothing in the pool. -/
def disconnect : M Unit := _checkpid

/-- A call, and what becomes of the connections that are held. -/
def call : PoolCall → M Unit
  | .get_connection env => do
    let c ← getConnection env
    modify fun s => { s with held := s.held ++ [c] }
  | .release c => do
    modify fun s => { s with held := s.held.erase c }
    release c
  | .disconnect => disconnect
  | .reset => reset
  | .fork pid locked => modify fun s =>
    { s with
      pool := { s.pool with _fork_lock := s.pool._fork_lock || locked }
      getpid := pid
      ancestors := s.getpid :: s.ancestors }

def step (s : Process ConnectionPool) (i : PoolCall) : Process ConnectionPool :=
  state ((call i).run s)

end ConnectionPool

/-! ### BlockingConnectionPool -/

inductive QueueClass where
  | LifoQueue | Queue
  deriving DecidableEq, Repr

/-- The next item and the rest. -/
def QueueClass.get {α : Type} (q : QueueClass) (items : List α) : Option (α × List α) :=
  match q with
  | .LifoQueue => items.getLast?.map fun x => (x, items.dropLast)
  | .Queue => items.head?.map fun x => (x, items.tail)

structure BlockingConnectionPool where
  max_connections : Nat
  cache : Bool
  queue_class : QueueClass
  /-- The queue `self.pool`, in which `none` is `None`, the placeholder. -/
  pool : List (Option Connection)
  _connections : List Connection
  pid : Nat
  _fork_lock : Bool

namespace BlockingConnectionPool

abbrev M (β : Type) := PoolM BlockingConnectionPool β

/-- `reset`, which leaves `_lock` unset. -/
def reset : M Unit := modify fun s =>
  { s with pool := { s.pool with
    pool := List.replicate s.pool.max_connections none
    _connections := []
    pid := s.getpid } }

/-- `__init__`, in a process of the given pid. -/
def init (max_connections : Nat) (cache : Bool) (queue_class : QueueClass) (getpid : Nat) :
    Process BlockingConnectionPool where
  pool :=
    { max_connections := if max_connections = 0 then 2 ^ 31 else max_connections
      cache := cache
      queue_class := queue_class
      pool := List.replicate (if max_connections = 0 then 2 ^ 31 else max_connections) none
      _connections := []
      pid := getpid
      _fork_lock := false }
  getpid := getpid

def _checkpid : M Unit := do
  let s ← get
  if s.pool.pid ≠ s.getpid then
    if s.pool._fork_lock then throw { cls := .ChildDeadlockedError }
    reset

def putNowait (item : Option Connection) : M Unit := do
  let p := (← get).pool
  if p.max_connections ≤ p.pool.length then throw { cls := .Full }
  setPool fun p => { p with pool := p.pool ++ [item] }

/-- `self.pool.get(block=True, timeout=self.timeout)`, when the wait is over. -/
def getItem : M (Option Connection) := do
  let p := (← get).pool
  match p.queue_class.get p.pool with
  | some (item, rest) =>
    setPool fun p => { p with pool := rest }
    return item
  | none => throw { cls := .ConnectionError, msg := "No connection available." }

def noLock : Exc where
  cls := .AttributeError
  msg := "'BlockingConnectionPool' object has no attribute '_lock'"

def makeConnection (env : Outcomes) : M Connection := do
  let c ← construct env
  -- `CacheProxyConnection(..., self.cache, self._lock)`
  if (← get).pool.cache then throw noLock
  setPool fun p => { p with _connections := p._connections ++ [c] }
  return c

def release (c : Connection) : M Unit := do
  _checkpid
  if c.pid ≠ (← get).pool.pid then
    putNowait none
  else
    tryCatch (putNowait (some c)) (fun e => do
      if e.isinstance .Full then return () else throw e)

/-- The part of `get_connection` that ends with a connection, in place of a placeholder a
new one. -/
def takeConnection (env : Outcomes) : M Connection := do
  match ← getItem with
  | some c => return c
  | none => makeConnection env

def getConnection (env : Outcomes) : M Connection := do
  _checkpid
  let c ← takeConnection env
  tryCatch (ensureReady env false) (fun e => do
    release c
    throw e)
  return c

/-- `disconnect`, which closes sockets and changes nothing in the pool. -/
def disconnect : M Unit := _checkpid

/-- A call, and what becomes of the connections that are held. -/
def call : PoolCall → M Unit
  | .get_connection env => do
    let c ← getConnection env
    modify fun s => { s with held := s.held ++ [c] }
  | .release c => do
    modify fun s => { s with held := s.held.erase c }
    release c
  | .disconnect => disconnect
  | .reset => reset
  | .fork pid locked => modify fun s =>
    { s with
      pool := { s.pool with _fork_lock := s.pool._fork_lock || locked }
      getpid := pid
      ancestors := s.getpid :: s.ancestors }

def step (s : Process BlockingConnectionPool) (i : PoolCall) : Process BlockingConnectionPool :=
  state ((call i).run s)

end BlockingConnectionPool

end RedisPy
