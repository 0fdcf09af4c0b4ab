import Mathlib
import RedisPy.Library.Interleave
import RedisPy.Library.Raising
import RedisPy.Spec.Exceptions

/-! `ConnectionPool` and `BlockingConnectionPool` of `redis/asyncio/connection.py`: the
tasks that get a connection and release it, from one `await` to the next. What making
and connecting a connection come to is given from outside, as are timeouts and
cancellations. -/

namespace RedisPy

namespace AsyncConnectionPool

open Interleave

/-- The connection object that was made as the so many-th of its pool. -/
abbrev Conn := Nat

/-- `ConnectionPool` or `BlockingConnectionPool` -/
inductive Kind where
  | plain | blocking
  deriving DecidableEq, Repr

structure Pool where
  kind : Kind
  max_connections : Nat
  _available_connections : List Conn := []
  _in_use_connections : List Conn := []
  /-- How many objects `make_connection` has made. -/
  made : Nat := 0
  -- the `_condition`
  locked : Bool := false
  /-- The futures waited for, and whether they are done. -/
  _waiters : List (Nat × Bool) := []
  nextWaiter : Nat := 0
  deriving DecidableEq, Repr

abbrev M (β : Type) := EStateM Exc Pool β

def Pool.canGetConnection (s : Pool) : Bool :=
  !s._available_connections.isEmpty || s._in_use_connections.length < s.max_connections

/-- `make_connection`; `connection_class(**self.connection_kwargs)` comes to `construct`. -/
def makeConnection (construct : Except Exc Unit) : M Conn := do
  match construct with
  | .error e => throw e
  | .ok () =>
    let s ← get
    set { s with made := s.made + 1 }
    return s.made

def getAvailableConnection (construct : Except Exc Unit) : M Conn := do
  let s ← get
  match s._available_connections.getLast? with
  | some c =>
    set { s with
      _available_connections := s._available_connections.dropLast
      _in_use_connections := s._in_use_connections.insert c }
    return c
  | none =>
    if s._in_use_connections.length ≥ s.max_connections then
      throw { cls := .ConnectionError, msg := "Too many connections" }
    else
      let c ← makeConnection construct
      modify fun s => { s with _in_use_connections := s._in_use_connections.insert c }
      return c

/-- `ConnectionPool.release` -/
def releaseConnection (c : Conn) : M Unit := do
  let s ← get
  if c ∈ s._in_use_connections then
    set { s with
      _in_use_connections := s._in_use_connections.erase c
      _available_connections := s._available_connections ++ [c] }
  else throw { cls := .KeyError }

/-- `asyncio.Condition.notify()`: the first future that is not done is done. -/
def notify : List (Nat × Bool) → List (Nat × Bool)
  | [] => []
  | (fut, true) :: ws => (fut, true) :: notify ws
  | (fut, false) :: ws => (fut, true) :: ws

/-- A task between two of its turns: it gets one connection, and releases it. -/
inductive Task where
  | ready
  /-- In `async with self._condition` of `get_connection` -/
  | locking
  /-- In `await fut` of `self._condition.wait()` -/
  | waiting (fut : Nat)
  /-- At the end of `self._condition.wait()`, in `await self.acquire()`; `pending` is
  raised when the lock is acquired. -/
  | relocking (pending : Option Exc)
  /-- In `await self.ensure_connection(connection)` -/
  | connecting (c : Conn)
  | holding (c : Conn)
  /-- In `async with self._condition` of `release` -/
  | releasing (c : Conn) (outcome : Except Exc Unit)
  | ended (outcome : Except Exc Unit)

/-- What a task waits for, and what has become of it. -/
inductive Event where
  | starts (construct : Except Exc Unit)
  | cancelled (e : Exc)
  | locks (construct : Except Exc Unit)
  | wakes (construct : Except Exc Unit)
  /-- The `async_timeout` of `get_connection` expires. -/
  | timesOut
  | connects (r : Except Exc Unit)
  | releases

/-- The connection a task holds. -/
def Task.held : Task → List Conn
  | .connecting c => [c]
  | .holding c => [c]
  | .releasing c _ => [c]
  | _ => []

namespace Pool

variable (s : Pool)

def release (c : Conn) : EStateM.Result Exc Pool Unit := (releaseConnection c).run s

/-- `async with self._condition`: where the lock is free, `body` runs with it. -/
def withCondition (suspended : Task) (body : Pool → Pool × Task) : Pool × Task :=
  if s.locked then (s, suspended) else body { s with locked := true }

/-- `self._condition.wait()`, up to its first `await`. -/
def wait : Pool × Task :=
  ({ s with
      locked := false
      _waiters := s._waiters ++ [(s.nextWaiter, false)]
      nextWaiter := s.nextWaiter + 1 },
    .waiting s.nextWaiter)

def removeWaiter (fut : Nat) : Pool :=
  { s with _waiters := s._waiters.filter (fun w => w.1 ≠ fut) }

/-- `await self._condition.wait_for(self.can_get_connection)` with the lock held, and
the end of the block once there is a connection to get. -/
def waitFor (construct : Except Exc Unit) : Pool × Task :=
  if s.canGetConnection then
    match (getAvailableConnection construct).run s with
    | .ok c s => ({ s with locked := false }, .connecting c)
    | .error e s => ({ s with locked := false }, .ended (.error e))
  else s.wait

/-- The end of `self._condition.wait()`. -/
def reacquire (construct : Except Exc Unit) (pending : Option Exc) : Pool × Task :=
  s.withCondition (.relocking pending) fun s =>
    match pending with
    | none => s.waitFor construct
    | some e => ({ s with locked := false }, .ended (.error e))

/-- `get_connection`, up to its first `await`. -/
def getConnection (construct : Except Exc Unit) : Pool × Task :=
  match s.kind with
  | .plain =>
    match (getAvailableConnection construct).run s with
    | .ok c s => (s, .connecting c)
    | .error e s => (s, .ended (.error e))
  | .blocking => s.withCondition .locking fun s => s.waitFor construct

/-- The block in `BlockingConnectionPool.release`, with the lock held. -/
def releaseLocked (c : Conn) (outcome : Except Exc Unit) : Pool × Task :=
  match s.release c with
  | .ok () s => ({ s with locked := false, _waiters := notify s._waiters }, .ended outcome)
  | .error e s => ({ s with locked := false }, .ended (.error e))

/-- `await self.release(connection)`, after which the task ends in `outcome`. -/
def releaseThen (c : Conn) (outcome : Except Exc Unit) : Pool × Task :=
  match s.kind with
  | .plain =>
    match s.release c with
    | .ok () s => (s, .ended outcome)
    | .error e s => (s, .ended (.error e))
  | .blocking => s.withCondition (.releasing c outcome) fun s => s.releaseLocked c outcome

end Pool

def noConnection : Exc := { cls := .ConnectionError, msg := "No connection available." }

/-- One turn of a task. -/
def resume (s : Pool) : Task → Event → Option (Pool × Task)
  | .ready, .cancelled e => some (s, .ended (.error e))
  | .ready, .starts construct => some (s.getConnection construct)
  | .locking, .cancelled e => some (s, .ended (.error e))
  | .locking, .locks construct =>
    if s.locked then none else some (s.withCondition .locking fun s => s.waitFor construct)
  | .waiting fut, .cancelled e => some ((s.removeWaiter fut).reacquire (.ok ()) (some e))
  | .waiting fut, .timesOut => some ((s.removeWaiter fut).reacquire (.ok ()) (some noConnection))
  | .waiting fut, .wakes construct =>
    if (fut, true) ∈ s._waiters then some ((s.removeWaiter fut).reacquire construct none) else none
  | .relocking _, .cancelled e => some (s, .relocking (some e))
  | .relocking _, .timesOut => some (s, .relocking (some noConnection))
  | .relocking pending, .locks construct =>
    if s.locked then none else some (s.reacquire construct pending)
  | .connecting c, .connects (.ok ()) => some (s, .holding c)
  | .connecting c, .connects (.error e) => some (s.releaseThen c (.error e))
  | .holding c, .releases => some (s.releaseThen c (.ok ()))
  -- the `release` is broken off before it has begun
  | .releasing _ _, .cancelled e => some (s, .ended (.error e))
  | .releasing c outcome, .locks _ =>
    if s.locked then none
    else some (s.withCondition (.releasing c outcome) fun s => s.releaseLocked c outcome)
  | _, _ => none

/-- Tasks that share one pool. -/
def program : Program Unit Pool Task Event where
  start := fun () => .ready
  resume := resume

/-- `__init__`: no maximum, and none of 0, is `2**31`. -/
def init (kind : Kind) (max_connections : Option Nat) : World Pool Task where
  shared :=
    { kind := kind
      max_connections := match max_connections with
        | none => 2 ^ 31
        | some 0 => 2 ^ 31
        | some (n + 1) => n + 1 }
  tasks := []

end AsyncConnectionPool

end RedisPy
